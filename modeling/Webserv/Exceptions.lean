import Webserv.BufferOrder
import Webserv.Dispatch
import Webserv.Effects.Starting
import Webserv.Resolution
import Webserv.RoutePaths
import Webserv.ServerClients
import Webserv.VirtualHosts

/-!
# The exceptions of a client

A call into a client can be left by an exception.  On a server that was configured, and with a kernel that
registers the sockets it is asked to, few of the many `throw` and `at` can be reached.

* `RequestContext.OriginForm`: an accepted target begins with a slash, so that `substr` does not throw.
* `Handler.HasListing`: what a GET has to list.
* `Regular`: what holds of a client after any events.
* `Faults`: the states and events that end in an exception.
* `Regular.callAnswer_throws_iff`: there are no others.

## Why an exact list

Nothing under the loop of the server catches an exception, so each of them ends the server and all its
clients.  That makes "which requests end the server" a question worth an exact answer.  The source has about
a dozen places that throw or follow a pointer: `at` of a map, `substr`, the `logic_error` of the base class,
a failing `epoll_ctl`, `readdir` of a null pointer, a request object that is not there.  For each place
there is either a lemma that it is not reached, or a case of `Faults`, and the theorem has both directions.

## The three that remain

The path of a GET may end in a slash and be that of a regular file: it is opened as a file, and then read as
a directory that was never opened.  A PUT to the name of a CGI has a CGI path and no CGI: the last chunk of
its body goes to `epoll_ctl` on the socket `-1`.  Both depend on the configuration and the files, and both
can be caused by a request.  The third is an event for writing on the CGI socket of a GET, which that socket
is not registered for; it is in the list because the events here are any events.

## What is needed on the way

That a target begins with a slash needs the parser of the head; that its location was found makes it as long
as the location's path, so that cutting it does not throw.  That a GET with a directory path has the
directory open, unless it reports an error or is done, is `HasListing`, and it has to be kept by every call
until the output is complete.  That the base class is never asked is `Dispatch`.  `Regular` collects what a
client needs; it is kept by every step.
-/

namespace Webserv

/-! ## The target of a request -/

namespace RequestContext

variable {ctx : RequestContext}

/-- The target of a request line that was accepted begins with a slash. -/
def OriginForm (ctx : RequestContext) : Prop :=
  ctx.requestState.requestLine = true → ctx.requestState.read = false → ctx.target.head? = some slash

theorem originForm_refuse (ctx : RequestContext) (code : Nat) : (ctx.refuse code).OriginForm :=
  fun _ hread => Bool.noConfusion hread

theorem originForm_parseVersion (hslash : ctx.target.head? = some slash) (line : Bytes) :
    (ctx.parseVersion line).OriginForm := by
  unfold parseVersion
  dsimp only
  split_ifs
  · exact originForm_refuse _ _
  · exact originForm_refuse _ _
  · exact fun _ _ => hslash

/-- The target up to its query. -/
theorem head?_splitQuery (hslash : ctx.target.head? = some slash) :
    ctx.splitQuery.target.head? = some slash := by
  unfold splitQuery
  obtain ⟨t, ht⟩ := List.head?_eq_some_iff.mp hslash
  cases hfind : Search.findSub [question] ctx.target with
  | none => exact hslash
  | some pos =>
    have hpos : pos ≠ 0 := by
      rintro rfl
      rw [ht, Search.findSub] at hfind
      simp [question, slash] at hfind
    obtain ⟨n, rfl⟩ := Nat.exists_eq_succ_of_ne_zero hpos
    simp [ht]

/-- A request line that is accepted has a target that begins with a slash. -/
theorem originForm_parseRequestLine (h : ctx.OriginForm) : ctx.parseRequestLine.2.OriginForm := by
  have htarget : ∀ (ctx : RequestContext) (line : Bytes), (ctx.parseTarget line).OriginForm := by
    intro ctx line
    unfold parseTarget
    cases Search.findSub [space] line with
    | none => exact originForm_refuse _ _
    | some pos =>
      dsimp only
      split_ifs with hslash
      · exact originForm_refuse _ _
      · exact originForm_parseVersion (head?_splitQuery (not_not.mp hslash)) _
  have hmethod : ∀ (ctx : RequestContext) (line : Bytes), (ctx.parseMethod line).OriginForm := by
    intro ctx line
    unfold parseMethod
    cases Search.findSub [space] line with
    | none => exact originForm_refuse _ _
    | some pos =>
      dsimp only
      split_ifs
      · exact originForm_refuse _ _
      · exact htarget _ _
      · exact originForm_refuse _ _
  unfold parseRequestLine
  cases BinaryBuffer.find ctx.buffer crlf with
  | none =>
    dsimp only
    split_ifs
    · exact originForm_refuse _ _
    · exact h
  | some pos =>
    dsimp only
    split_ifs
    · exact originForm_refuse _ _
    · exact hmethod _ _

theorem originForm_parseHeadersLoop (n : Nat) {ctx : RequestContext} (h : ctx.OriginForm) :
    (ctx.parseHeadersLoop n).2.OriginForm := by
  induction n generalizing ctx with
  | zero => exact h
  | succ n ih =>
    rw [parseHeadersLoop]
    cases BinaryBuffer.find ctx.buffer crlf with
    | none => exact h
    | some pos =>
      dsimp only
      split_ifs
      · exact originForm_refuse _ _
      · exact h
      · cases Search.findSub (bytes ": ") (BinaryBuffer.substr ctx.buffer 0 pos) with
        | none => exact originForm_refuse _ _
        | some colon => exact ih h

/-- The target stays as it is while the headers are read. -/
theorem originForm_parseHead (h : ctx.OriginForm) : ctx.parseHead.2.OriginForm := by
  have hheaders : ∀ {ctx : RequestContext}, ctx.OriginForm →
      (if ctx.requestState.isReadHeadersComplete then (Ret.reqDone, ctx)
        else ctx.parseHeaders).2.OriginForm := by
    intro ctx h
    split_ifs
    · exact h
    · exact originForm_parseHeadersLoop _ h
  have hline := originForm_parseRequestLine h
  unfold parseHead
  dsimp only
  by_cases hread : ctx.requestState.isReadRequestLineComplete = true
  · rw [if_pos hread]
    exact hheaders h
  · rw [if_neg hread]
    generalize ctx.parseRequestLine = r at hline ⊢
    obtain ⟨ret, ctx'⟩ := r
    cases ret with
    | reqDone => exact hheaders hline
    | reqContinue | reqError | throws => exact hline

end RequestContext

/-! ## An upload to the name of a CGI -/

namespace Handler

/-- The unread bytes are the last chunk of a body, as far as its line ends are there. -/
def IsLastChunk (buffer : Bytes) : Prop :=
  ∃ rest, buffer = 48 :: (crlf ++ rest) ∧ (rest <+: crlf ∨ crlf <+: rest)

/-- The table of terminators on a buffer with a line. -/
theorem isTerminator_iff {buffer : Bytes} {pos : Nat}
    (hfind : BinaryBuffer.find buffer crlf = some pos) :
    isTerminator buffer 0 = true ↔ IsLastChunk buffer := by
  have hfirst : isTerminator buffer 0 = true ↔
      buffer <+: 48 :: (crlf ++ crlf) ∨ 48 :: (crlf ++ crlf) <+: buffer :=
    decide_eq_true_iff.trans BinaryBuffer.compare_eq_zero_iff
  rw [hfirst]
  constructor
  · rintro ( hprefix | ⟨s, hs⟩)
    · have htake := List.prefix_iff_eq_take.mp hprefix
      have hle : buffer.length ≤ 5 := hprefix.length_le
      generalize buffer.length = n at htake hle
      subst htake
      obtain rfl | rfl | rfl | rfl | rfl | rfl : n = 0 ∨ n = 1 ∨ n = 2 ∨ n = 3 ∨ n = 4 ∨ n = 5 := by omega
      · cases hfind
      · cases hfind
      · cases hfind
      · exact ⟨[], rfl, Or.inl List.nil_prefix⟩
      · exact ⟨[cr], rfl, Or.inl (by decide)⟩
      · exact ⟨crlf, rfl, Or.inl List.prefix_rfl⟩
    · exact ⟨crlf ++ s, by rw [← hs, List.cons_append, List.append_assoc],
        Or.inr (List.prefix_append _ _)⟩
  · rintro ⟨rest, rfl, hrest⟩
    simpa [List.cons_prefix_cons, List.prefix_append_right_inj] using hrest

/-- A chunked upload without a CGI to go to stands at the beginning of a chunk. -/
def StartsChunk (h : Handler) : Prop := h.request.chunked = true → h.request.contentLength = -1

/-- How the reader of an upload to the name of a CGI ends, which has no socket to write to: the last chunk
is saved, which throws, and after anything else that is waited for, the chunk still begins. -/
structure EndsUnsaved (h : Handler) (r : Ret × Handler) : Prop where
  throws : ∀ fault, r.1 = .throws fault ↔
    fault = .runtimeError ∧ h.request.chunked = true ∧ IsLastChunk h.context.buffer
  waits : r.1 = .reqContinue → r.2.context.requestState.workIn = false → r.2.StartsChunk

/-- An answer that throws nothing, for unread bytes that are no last chunk. -/
theorem EndsUnsaved.of_returns {h : Handler} {r : Ret × Handler} (hret : ∀ fault, r.1 ≠ .throws fault)
    (hlast : ¬ (h.request.chunked = true ∧ IsLastChunk h.context.buffer))
    (hwaits : r.1 = .reqContinue → r.2.context.requestState.workIn = false → r.2.StartsChunk) :
    EndsUnsaved h r where
  throws fault := iff_of_false (hret fault) fun hand => hlast hand.2
  waits := hwaits

theorem bodyRet_ne_throws (h : Handler) (fault : Fault) : h.bodyRet ≠ .throws fault := by
  rcases bodyRet_cases h with heq | heq <;> rw [heq] <;> exact fun hret => Ret.noConfusion hret

/-- The size line of a last chunk. -/
theorem IsLastChunk.line {buffer : Bytes} (h : IsLastChunk buffer) {pos : Nat}
    (hfind : BinaryBuffer.find buffer crlf = some pos) :
    BinaryBuffer.substr buffer 0 pos = [48] := by
  obtain ⟨rest, rfl, -⟩ := h
  obtain rfl : 1 = pos := Option.some.inj hfind
  rfl

section Unsaved

variable (sys : Sys) {h : Handler} (hcgi : h.request.cgiPath.isSome = true)
  (hsocket : h.context.cgiSocket = -1)

include hcgi hsocket

/-- The size of the last chunk was read, or another zero. -/
theorem endsUnsaved_readEndOfTransfer (hchunked : h.request.chunked = true) {pos : Nat}
    (hfind : BinaryBuffer.find h.context.buffer crlf = some pos) (n : Int) :
    EndsUnsaved h (readEndOfTransfer sys (h.setContentLength n)) := by
  have hterminator := isTerminator_iff hfind
  unfold readEndOfTransfer
  by_cases hlast : isTerminator (h.setContentLength n).context.buffer 0 = true
  · obtain ⟨h', hsave, -⟩ := @saveFile_of_noSocket sys (h.setContentLength n).clearBuffer hcgi hsocket
    rw [if_pos hlast, hsave]
    refine ⟨fun fault => ⟨fun hthrows => ?_, fun hand => ?_⟩, fun hret => Ret.noConfusion hret⟩
    · exact ⟨(Ret.throws.inj hthrows).symm, hchunked, hterminator.mp hlast⟩
    · exact congrArg Ret.throws hand.1.symm
  · have hnot : ¬ (h.request.chunked = true ∧ IsLastChunk h.context.buffer) :=
      fun hand => hlast (hterminator.mpr hand.2)
    rw [if_neg hlast]
    split_ifs
    · exact .of_returns (fun _ hret => Ret.noConfusion hret) hnot fun _ _ _ => rfl
    · exact .of_returns (bodyRet_ne_throws _) hnot fun _ hworkIn => Bool.noConfusion hworkIn

/-- The bytes of a chunk have nowhere to go. -/
theorem reqError_readChunk : ∃ h', readChunk sys h = .error (.reqError, h') := by
  unfold readChunk
  dsimp only
  split_ifs
  · obtain ⟨h', hwrite, -⟩ :=
      @writeChunk_of_noSocket sys h hcgi hsocket (toSize h.request.contentLength)
    exact ⟨h', by rw [hwrite]; rfl⟩
  · obtain ⟨h', hwrite, -⟩ := @writeChunk_of_noSocket sys h hcgi hsocket h.context.buffer.length
    exact ⟨h', by rw [hwrite]; rfl⟩

/-- A round of the chunked reader is the last one. -/
theorem endsUnsaved_readRound (hchunked : h.request.chunked = true)
    (hsize : h.request.contentLength = -1) :
    ∃ r, readRound sys h = .error r ∧ EndsUnsaved h r := by
  have hrefuses : ∀ (h' : Handler) (code : Nat), ¬ IsLastChunk h.context.buffer →
      EndsUnsaved h (h.bodyRet, h'.refuseBody code) := fun h' code hnot =>
    .of_returns (bodyRet_ne_throws h) (fun hand => hnot hand.2)
      fun _ hworkIn => Bool.noConfusion hworkIn
  rw [readRound_of_ok (if_neg (by rw [hsize]; decide))]
  cases hfind : BinaryBuffer.find h.context.buffer crlf with
  | none =>
    rw [readChunkSize_of_none sys hsize hfind]
    refine ⟨_, rfl, .of_returns (fun _ hret => Ret.noConfusion hret) ?_ fun _ _ _ => hsize⟩
    rintro ⟨-, rest, hbuffer, -⟩
    rw [hbuffer] at hfind
    cases hfind
  | some pos =>
    -- the line of a last chunk is a zero
    have hline : IsLastChunk h.context.buffer →
        BinaryBuffer.substr h.context.buffer 0 pos = [48] := fun hlast => hlast.line hfind
    have hzero : sToContentLength [48] true = 0 := by decide
    rw [readChunkSize_of_find sys hsize hfind rfl rfl]
    generalize BinaryBuffer.substr h.context.buffer 0 pos = line at hline ⊢
    split_ifs with hnil hinvalid hend hlimit
    · refine ⟨_, rfl, hrefuses _ _ fun hlast => ?_⟩
      rw [hline hlast] at hnil
      cases hnil
    · refine ⟨_, rfl, hrefuses _ _ fun hlast => ?_⟩
      rw [hline hlast, hzero] at hinvalid
      cases hinvalid
    · exact ⟨_, rfl, endsUnsaved_readEndOfTransfer sys hcgi hsocket hchunked hfind _⟩
    · exact ⟨_, rfl, hrefuses _ _ fun hlast => hend (by rw [hline hlast, hzero])⟩
    · obtain ⟨h', hr⟩ :=
        @reqError_readChunk sys (h.startChunk pos (sToContentLength line true)) hcgi hsocket
      refine ⟨_, (pure_bind _ (readChunk sys)).trans hr, ?_⟩
      exact .of_returns (fun _ hret => Ret.noConfusion hret)
        (fun hand => hend (by rw [hline hand.2, hzero])) fun hret => Ret.noConfusion hret

/-- **Where an upload without a CGI throws.**  Its reader throws when the last chunk is there, and not
before. -/
theorem endsUnsaved_readBody (hstarts : h.StartsChunk) : EndsUnsaved h (readBody sys h) := by
  unfold readBody
  split_ifs with hchunked
  · have hsize := hstarts hchunked
    unfold readChunked
    cases hlength : h.context.buffer.length with
    | zero =>
      refine .of_returns (fun _ hret => Ret.noConfusion hret) ?_ fun _ _ => hstarts
      rintro ⟨-, rest, hbuffer, -⟩
      rw [hbuffer] at hlength
      cases hlength
    | succ n =>
      have hne : h.context.buffer ≠ [] := by
        intro hnil
        rw [hnil] at hlength
        cases hlength
      obtain ⟨r, hr, hends⟩ := endsUnsaved_readRound sys hcgi hsocket hchunked hsize
      rw [readChunkedLoop, if_neg hne, hr]
      exact hends
  · have hplain : ¬ (h.request.chunked = true ∧ IsLastChunk h.context.buffer) :=
      fun hand => hchunked hand.1
    unfold readContent
    split_ifs
    · obtain ⟨h', hwrite, -⟩ := @writeChunk_of_noSocket sys h hcgi hsocket h.context.buffer.length
      rw [hwrite]
      exact .of_returns (fun _ hret => Ret.noConfusion hret) hplain fun hret => Ret.noConfusion hret
    · exact .of_returns (bodyRet_ne_throws h) hplain fun _ hworkIn => Bool.noConfusion hworkIn

end Unsaved

/-- A PUT begins with the beginning of a chunk, when it is chunked. -/
theorem startsChunk_processingPUT (sys : Sys) {h : Handler} (hput : h.request.kind = .put)
    (hplain : h.request.chunked = false) : (processingPUT sys h).StartsChunk := by
  have hnot : ∀ h' : Handler, h'.request.chunked = false → h'.StartsChunk := by
    intro h' hplain' hchunked
    rw [hplain'] at hchunked
    cases hchunked
  have hstarts := startsBody_processingPUT sys hput
  generalize processingPUT sys h = h' at hstarts ⊢
  cases hstarts with
  | refused n hcode f => exact hnot _ hplain
  | cgi hpost => rw [hput] at hpost; cases hpost
  | @upload h₁ _ f hkind hchecked huploads =>
    have hfirst : h₁.StartsChunk := by
      cases hchecked with
      | chunked => exact fun _ => rfl
      | content hpos hmax => exact hnot _ hplain
    cases huploads <;> exact hfirst

/-! ## The directory of a GET -/

/-- A GET has put everything out, or reports an error, or, unless its path is that of a file, has the
directory open that its path names. -/
def HasListing (h : Handler) : Prop :=
  h.context.requestState.workOut = true ∨ isErrorCode h.context.response.statusCode = true ∨
    (h.request.path.isDirFormat = true → (h.request.directory = none ↔ h.request.path.isFile = true))

theorem hasListing_openCGI (sys : Sys) (h : Handler) : (openCGI sys h).HasListing := by
  rcases openCGI_cases sys h with heq | ⟨pair, heq⟩ | ⟨pair, pid, heq⟩ <;> rw [heq]
  · exact Or.inr (Or.inl rfl)
  · exact Or.inr (Or.inl rfl)
  · exact Or.inl rfl

/-- A file that was opened is sent as a file, or answered with an error. -/
theorem hasListing_openFileGET (sys : Sys) {h : Handler} (hnone : h.request.directory = none)
    (hfile : h.request.path.isFile = true) : (openFileGET sys h).HasListing := by
  unfold openFileGET
  dsimp only
  split_ifs
  · exact Or.inr (Or.inr fun _ => iff_of_true hnone hfile)
  · exact Or.inr (Or.inl rfl)

theorem hasListing_listDirectory (sys : Sys) {h : Handler} (hfile : h.request.path.isFile = false) :
    (listDirectory (openDirGET sys) h).HasListing := by
  unfold listDirectory openDirGET
  dsimp only
  split_ifs with _ hopen
  · refine Or.inr (Or.inr fun _ => iff_of_false (fun hnone => ?_) (Bool.eq_false_iff.mp hfile))
    rw [show opendir sys h.context.world.fs h.request.path.str = none from hnone] at hopen
    cases hopen
  · exact Or.inr (Or.inl rfl)
  · exact Or.inr (Or.inl rfl)

/-- What `_validateLocalFile` leaves to go on with, or answers with. -/
theorem hasListing_validateLocalFileGET (sys : Sys) {h : Handler} (hnone : h.request.directory = none) :
    ((validateLocalFileGET sys h).1 = .reqContinue ∧
        (validateLocalFileGET sys h).2.request.directory = none ∧
        (validateLocalFileGET sys h).2.request.path.isFile = false) ∨
      (validateLocalFileGET sys h).1 = .reqDone ∧ (validateLocalFileGET sys h).2.HasListing := by
  unfold validateLocalFileGET validateLocalFile
  cases h.request.path.stat sys h.context.world.fs with
  | none => exact Or.inr ⟨rfl, Or.inr (Or.inl rfl)⟩
  | some path =>
    dsimp only
    split_ifs with hread hfile
    · refine Or.inr ⟨rfl, ?_⟩
      dsimp only
      generalize (h.setPath path).request.cgiPath = cgi
      cases cgi with
      | some cgi => exact hasListing_openCGI sys _
      | none => exact hasListing_openFileGET sys hnone hfile
    · exact Or.inl ⟨rfl, hnone, Bool.eq_false_iff.mpr hfile⟩
    · exact Or.inr ⟨rfl, Or.inr (Or.inl rfl)⟩

/-- What `processing` of GET opens. -/
theorem hasListing_processingGET (sys : Sys) {h : Handler} (hnone : h.request.directory = none) :
    (processingGET sys h).HasListing := by
  have hvalidate := fun h hnone => @hasListing_validateLocalFileGET sys h hnone
  unfold processingGET processFile
  split_ifs with hexists
  · have hfirst := hvalidate h hnone
    generalize validateLocalFileGET sys h = r at hfirst ⊢
    obtain ⟨ret, h₁⟩ := r
    rcases hfirst with ⟨rfl, hnone₁, hfile₁⟩ | ⟨rfl, hlists⟩
    · dsimp only
      split_ifs with hdir hformat
      · cases hindex : h₁.fetchIndexes with
        | none => exact hasListing_listDirectory sys hfile₁
        | some h₂ =>
          have hnone₂ : h₂.request.directory = none := by
            obtain ⟨test, -, rfl⟩ := Option.map_eq_some_iff.mp hindex
            exact hnone₁
          have hsecond := hvalidate h₂ hnone₂
          dsimp only
          generalize validateLocalFileGET sys h₂ = r at hsecond ⊢
          obtain ⟨ret, h₃⟩ := r
          rcases hsecond with ⟨rfl, -, hfile₃⟩ | ⟨rfl, hlists⟩
          · exact hasListing_listDirectory sys hfile₃
          · exact hlists
      · exact Or.inr (Or.inr fun hdirFormat => absurd hdirFormat hformat)
      · exact Or.inr (Or.inl rfl)
    · exact hlists
  · exact Or.inr (Or.inl rfl)

/-- A part of the output is put out.  A directory that was opened stays open until the output is complete. -/
theorem HasListing.workOutGET {h : Handler} (hlists : h.HasListing) (sys : Sys) :
    (workOutGET sys h).2.HasListing := by
  unfold Handler.workOutGET
  split_ifs
  · unfold readFile
    dsimp only
    split_ifs
    · exact Or.inl rfl
    · exact hlists
  · unfold readDir
    cases hdirectory : h.request.directory with
    | none => exact hlists
    | some entries =>
      dsimp only
      generalize readEntries (entryRow sys h) sys.readdirFails entries 0 0 [] = r
      obtain ⟨buffer, batch⟩ := r
      cases batch with
      | failed => exact Or.inr (Or.inl rfl)
      | last => exact Or.inl rfl
      | full rest =>
        refine hlists.imp id (Or.imp id fun hopen hformat => ?_)
        have hnot : h.request.path.isFile ≠ true := fun hfile => by
          rw [(hopen hformat).mpr hfile] at hdirectory
          cases hdirectory
        exact iff_of_false (Option.some_ne_none rest) hnot
  · exact hlists

theorem kind_workOutGET (sys : Sys) (h : Handler) :
    (workOutGET sys h).2.request.kind = h.request.kind := by
  unfold workOutGET
  split_ifs
  · unfold readFile
    dsimp only
    split_ifs <;> rfl
  · unfold readDir
    cases h.request.directory with
    | none => rfl
    | some entries =>
      dsimp only
      generalize readEntries (entryRow sys h) sys.readdirFails entries 0 0 [] = r
      obtain ⟨buffer, batch⟩ := r
      cases batch <;> rfl
  · rfl

/-! ## Work without an exception -/

/-- With a kernel that changes what a socket is registered for, a sink that is there throws nothing. -/
theorem readerRule_registers (sys : Sys) (hctl : ∀ fd, sys.epollCtl fd = true) :
    ReaderRule sys (fun h => h.request.cgiPath.isSome = true → h.context.cgiSocket ≠ -1)
      fun r => ∀ fault, r.1 ≠ .throws fault where
  waits _ _ hret := Ret.noConfusion hret
  buffer _ := id
  counters _ _ := id
  refuses := by
    rintro h ret code (rfl | rfl) - fault
    · exact fun hret => Ret.noConfusion hret
    · exact bodyRet_ne_throws h fault
  writes := by
    intro h h' ret size hsocket hwrite _
    obtain ⟨f, hf⟩ := (reads_writeChunk sys h size).fields
    rw [hwrite] at hf
    rw [show h' = h.withBody f from hf]
    exact hsocket
  writeFails _ _ _ _ hret := Ret.noConfusion hret
  saves _ _ _ := bodyRet_ne_throws _
  saveFails := by
    intro h h' fault hsocket hsave
    unfold saveFile at hsave
    cases hcgi : h.request.cgiPath with
    | none =>
      rw [hcgi] at hsave
      cases hsave
    | some path =>
      rw [hcgi] at hsocket hsave
      dsimp only at hsave
      have hregisters : epollCtl sys h.context.cgiSocket = true := by
        rw [epollCtl, hctl, Bool.and_true]
        exact decide_eq_true (hsocket rfl)
      rw [if_pos hregisters] at hsave
      cases hsave

/-- A reader with a sink does not throw, when the kernel changes registrations as it is asked to. -/
theorem readBody_ne_throws {sys : Sys} {h : Handler} (hctl : ∀ fd, sys.epollCtl fd = true)
    (hsocket : h.request.cgiPath.isSome = true → h.context.cgiSocket ≠ -1) (fault : Fault) :
    (readBody sys h).1 ≠ .throws fault :=
  (readerRule_registers sys hctl).readBody hsocket fault

/-- Reading from a CGI throws nothing in any case. -/
theorem readCGI_ne_throws (sys : Sys) (h : Handler) (fault : Fault) :
    (readCGI sys h).1 ≠ .throws fault := by
  unfold readCGI
  split_ifs
  · exact fun hret => Ret.noConfusion hret
  · dsimp only
    cases sys.recv <;> exact fun hret => Ret.noConfusion hret

/-- The directory of a GET is read when the path ends in a slash, whatever it is that is there. -/
theorem workOutGET_throws_iff (sys : Sys) {h : Handler} (fault : Fault) :
    (workOutGET sys h).1 = .throws fault ↔
      fault = .nullPointer ∧ h.request.path.isDirFormat = true ∧ h.request.directory = none := by
  unfold workOutGET
  split_ifs with hfile hdir
  · have hnot : h.request.path.isDirFormat ≠ true := fun hdir => Path.not_isFileFormat hdir hfile
    refine iff_of_false (fun hret => ?_) fun hand => hnot hand.2.1
    unfold readFile at hret
    dsimp only at hret
    split_ifs at hret
  · unfold readDir
    cases hdirectory : h.request.directory with
    | none =>
      rw [Ret.throws.injEq]
      exact ⟨fun heq => ⟨heq.symm, hdir, rfl⟩, fun hand => hand.1.symm⟩
    | some entries =>
      refine iff_of_false (fun hret => ?_) fun hand => Option.some_ne_none _ hand.2.2
      dsimp only at hret
      generalize readEntries (entryRow sys h) sys.readdirFails entries 0 0 [] = r at hret
      obtain ⟨buffer, batch⟩ := r
      cases batch <;> cases hret
  · exact iff_of_false (fun hret => by cases hret) fun hand => hdir hand.2.1

end Handler

/-- The kernel registers every socket that the call asks it to. -/
def Event.Registers : Event → Prop
  | .clientIn sys | .clientOut sys | .cgiIn sys | .cgiOut sys | .timeoutCheck sys =>
    ∀ fd, sys.epollCtl fd = true
  | .environment _ => True

/-! ## The server that was configured -/

/-- Every socket that listens has blocks, and their locations are those of a configuration file. -/
structure Server.Configured (server : Server) : Prop where
  found : ∀ fd, (server.serverBlocks.find? fd).isSome = true →
    ∀ name, ∃ block, server.findServerBlock fd name = some block
  parsed : ∀ fd name block, server.findServerBlock fd name = some block →
    ∀ loc ∈ block.locations, loc.Parsed

namespace Client

variable {c : Client} {sys : Sys}

/-! ## The requests of a configured server -/

theorem registerCGI_ne_throws (c : Client) (hctl : ∀ fd, sys.epollCtl fd = true) (fault : Fault) :
    c.registerCGI sys ≠ .throws fault := by
  unfold registerCGI
  split_ifs with hfails
  · exact absurd (hctl _) hfails.2
  · exact fun hret => Ret.noConfusion hret
  · exact fun hret => Ret.noConfusion hret
  · exact fun hret => Ret.noConfusion hret

/-- The target reaches behind the path of its location.  Without this `substr` of the constructor would
throw `std::out_of_range`. -/
theorem matchLength_le_of_found {block : ServerBlock} {loc : LocationBlock} {target : Bytes}
    (hloc : loc.Parsed) (htarget : target.head? = some slash)
    (hfound : block.findLocationBlock (Path.ofString target) = some loc) :
    loc.matchLength ≤ target.length := by
  obtain ⟨ds, hds⟩ := exists_components_of_isMatch
    (isMatch_of_findLocationLoop hfound fun _ hnone => (Option.not_mem_none _ hnone).elim)
  exact hloc.matchLength_le.2.trans (length_rooted_le htarget hds)

/-- Resolving a request of a configured server throws nothing: its socket has blocks, and its target reaches
behind its location. -/
theorem resolveARequest_ne_throws (hserver : c.context.server.Configured)
    (hlistening : (c.context.server.serverBlocks.find? c.connectSocket).isSome = true)
    (htarget : c.context.target.head? = some slash) (hctl : ∀ fd, sys.epollCtl fd = true)
    (fault : Fault) : (c.resolveARequest sys).1 ≠ .throws fault := by
  have hanswer : ∀ {ret : Ret}, ret = .reqContinue ∨ ret = .reqDone → ret ≠ .throws fault := by
    rintro ret (rfl | rfl) <;> exact fun hret => Ret.noConfusion hret
  obtain ⟨block, hblock⟩ := hserver.found _ hlistening ((c.context.headers.find? headerHost).getD [])
  unfold resolveARequest
  dsimp only
  rw [hblock]
  dsimp only
  cases hrule : block.findLocationBlock (Path.ofString c.context.target) with
  | none => exact hanswer (Or.inl rfl)
  | some loc =>
    have hmem : loc ∈ block.locations :=
      (Server.mem_of_findLocationLoop hrule).resolve_right (Option.some_ne_none loc).symm
    have hlong := matchLength_le_of_found (hserver.parsed _ _ _ hblock loc hmem) htarget hrule
    dsimp only
    split_ifs
    · exact hanswer (Or.inl rfl)
    · exact hanswer (Or.inr rfl)
    · unfold startRequest
      dsimp only
      cases requestKind c.context.method with
      | none => exact hanswer (Or.inl rfl)
      | some kind =>
        obtain ⟨h, hcreate, -⟩ := @createRequest_eq loc kind
          { c.context with serverBlock := some block, ruleBlock := some loc } rfl hlong
        dsimp only
        rw [hcreate]
        exact registerCGI_ne_throws _ hctl fault
    · exact hanswer (Or.inl rfl)

/-- The parser of the head throws nothing.  Its lookups succeed: the socket has server blocks, and every
location that is found matches. -/
theorem parseRequest_ne_throws (h : AwaitsHead c) (horigin : c.context.OriginForm)
    (hserver : c.context.server.Configured)
    (hlistening : (c.context.server.serverBlocks.find? c.connectSocket).isSome = true)
    (hctl : ∀ fd, sys.epollCtl fd = true) (fault : Fault) : (c.parseRequest sys).1 ≠ .throws fault := by
  obtain ⟨requestLine, hstate⟩ := h.requestState
  have hparsed := RequestContext.headParsed_parseHead hstate
  have htarget := RequestContext.originForm_parseHead horigin
  generalize hhead : c.context.parseHead = r at hparsed htarget
  cases hparsed with
  | waiting f requestLine =>
    unfold parseRequest
    rw [hhead]
    exact fun hret => Ret.noConfusion hret
  | refused f code hcode =>
    have hstatus : code ≠ statusNone := by
      rintro rfl
      cases hcode
    rw [parseRequest_refused hhead hstatus]
    exact fun hret => Ret.noConfusion hret
  | accepted f =>
    have hresolve := @resolveARequest_ne_throws (c.acceptHead f) sys hserver hlistening
      (htarget rfl rfl) hctl fault
    rw [parseRequest_accepted hhead (h.headAccepted f).statusCode]
    unfold acceptHead at hresolve
    generalize resolveARequest _ sys = r at hresolve ⊢
    obtain ⟨ret, c'⟩ := r
    cases ret with
    | reqContinue => exact fun hret => Ret.noConfusion hret
    | reqDone | reqError | throws => exact hresolve

theorem startResponse_fst (c : Client) (hctl : ∀ fd, sys.epollCtl fd = true) :
    (c.startResponse sys).1 = .reqContinue := by
  have hswitch : ∀ c : Client, (c.switchToWrite sys).1 = .reqContinue := by
    intro c
    unfold switchToWrite
    rw [if_pos (hctl c.fd)]
  exact hswitch _

/-! ## What holds after any events -/

/-- The request object is as its constructor and the calls after it leave it. -/
structure Equipped (c : Client) : Prop where
  starts : c.context.requestState.workIn = false → ∀ r, c.request = some r → r.kind = .put →
    r.cgiPath.isSome = true → Handler.StartsChunk ⟨c.context, r⟩
  lists : ∀ r, c.request = some r → r.kind = .get → Handler.HasListing ⟨c.context, r⟩

/-- Where there is no request object, nothing is missing. -/
theorem equipped_of_none (hnone : c.request = none) : Equipped c where
  starts _ r hr := by
    rw [hnone] at hr
    cases hr
  lists r hr := by
    rw [hnone] at hr
    cases hr

/-- The request object is the same, and the flags and the status say no less. -/
theorem Equipped.of_same {c' : Client} (h : Equipped c) (hrequest : c'.request = c.request)
    (hworkIn : c.context.requestState.workIn = true → c'.context.requestState.workIn = true)
    (hlists : c.context.requestState.workOut = true ∨ c.hasError = true →
      c'.context.requestState.workOut = true ∨ c'.hasError = true) : Equipped c' where
  starts hset r hr := by
    have hunset : c.context.requestState.workIn = false := by
      cases hold : c.context.requestState.workIn with
      | false => rfl
      | true =>
        rw [hworkIn hold] at hset
        cases hset
    exact h.starts hunset r (hrequest ▸ hr)
  lists r hr hget := by
    rcases h.lists r (hrequest ▸ hr) hget with hworkOut | herror | hlists'
    · exact or_assoc.mp (Or.inl (hlists (Or.inl hworkOut)))
    · exact or_assoc.mp (Or.inl (hlists (Or.inr herror)))
    · exact Or.inr (Or.inr hlists')

theorem Resolves.equipped (hnone : c.request = none) {r : Ret × Client} (h : Resolves c sys r) :
    Equipped r.2 := by
  cases h with
  | noServer | noTarget | answers | redirects => exact equipped_of_none hnone
  | @creates block loc kind h₀ hfinds hkind hcreate =>
    have hkind' := (Handler.started_processing sys hcreate).kind_eq
    obtain ⟨chopedTarget, -, rfl⟩ := createRequest_ok hcreate
    constructor
    · rintro - r hr hput -
      cases hr
      obtain rfl : kind = .put := hkind'.symm.trans hput
      exact Handler.startsChunk_processingPUT sys rfl rfl
    · rintro r hr hget
      cases hr
      obtain rfl : kind = .get := hkind'.symm.trans hget
      exact Handler.hasListing_processingGET sys rfl

theorem AwaitsHead.equipped_parseRequest (h : AwaitsHead c) (sys : Sys) :
    Equipped (c.parseRequest sys).2 := by
  have hends := h.headEnds sys
  generalize c.parseRequest sys = r at hends ⊢
  cases hends with
  | waits | refused => exact equipped_of_none h.request
  | resolved f hhead hresolves hret => exact hresolves.equipped (h.headAccepted f).request
  | answered f hhead hresolves =>
    exact (hresolves.equipped (h.headAccepted f).request).of_same rfl (fun _ => rfl) id

theorem Equipped.startResponse (h : Equipped c) (sys : Sys) : Equipped (c.startResponse sys).2 := by
  obtain ⟨f, heq, hstatus, hstate, -⟩ := prepareError_cases c sys
  have hle : c.context.requestState.Le f.requestState := by
    rcases hstate with hstate | hstate <;> rw [hstate]
    · exact .refl _
    · exact RequestState.le_setWorkComplete _
  have hpage : Equipped (c.withPage f) := h.of_same rfl hle.workIn fun hor =>
    hor.imp hle.workOut fun herror => (hasError_of_statusCode (c := c) hstatus).trans herror
  have hswitch : ∀ {c : Client}, Equipped c → Equipped (c.switchToWrite sys).2 := by
    intro c h
    rcases switchToWrite_cases c sys with heq | heq <;> rw [heq]
    · exact h
    · exact h.of_same rfl id id
  unfold Client.startResponse
  rw [heq]
  dsimp only
  split_ifs
  · exact hswitch (hpage.of_same rfl id id)
  · exact hswitch hpage

/-- The answer of a reader that throws nothing goes to the server, or the response is started. -/
theorem AwaitsBody.equipped_handleRequest (h : AwaitsBody c) (hequipped : Equipped c) (sys : Sys) :
    (settle (c.handleRequest sys)).closed = true ∨ Equipped (settle (c.handleRequest sys)) := by
  obtain ⟨request, hrequest, hkind, heq⟩ := h.handleRequest_eq sys
  have hended := Handler.ended_readBody sys ⟨c.context, request⟩
  have hkept : (Handler.readBody sys ⟨c.context, request⟩).2.request.kind = request.kind ∧
      (Handler.readBody sys ⟨c.context, request⟩).2.request.cgiPath = request.cgiPath := by
    obtain ⟨f, hf⟩ := (Handler.reads_readBody sys ⟨c.context, request⟩).fields
    rw [hf]
    exact ⟨rfl, rfl⟩
  have hends : request.kind = .put → request.cgiPath.isSome = true →
      Handler.EndsUnsaved ⟨c.context, request⟩ (Handler.readBody sys ⟨c.context, request⟩) :=
    fun hput hcgi => Handler.endsUnsaved_readBody sys hcgi h.cgiSocket
      (hequipped.starts h.workIn request hrequest hput hcgi)
  rw [heq]
  generalize Handler.readBody sys ⟨c.context, request⟩ = r at hended hkept hends ⊢
  obtain ⟨ret, h'⟩ := r
  have hbody : ret = .reqContinue ∨ ret = .reqDone →
      Equipped ((c.touch .clientBody sys.now).withHandler h') := by
    intro hret
    constructor
    · rintro hworkIn r hr hput hcgi
      cases hr
      have hput' : request.kind = .put := hkept.1.symm.trans hput
      have hcgi' : request.cgiPath.isSome = true := hkept.2 ▸ hcgi
      rcases hret with rfl | rfl
      · exact (hends hput' hcgi').waits rfl hworkIn
      · have hset : h'.context.requestState.workIn = true := hended rfl
        rw [show h'.context.requestState.workIn = false from hworkIn] at hset
        cases hset
    · rintro r hr hget
      cases hr
      rw [show h'.request.kind = request.kind from hkept.1] at hget
      rcases hkind with hput | hpost
      · rw [hput] at hget
        cases hget
      · rw [hpost.1] at hget
        cases hget
  cases ret with
  | reqDone =>
    have hstart := (hbody (Or.inr rfl)).startResponse sys
    exact Or.inr (hstart.of_same rfl id id)
  | reqContinue => exact Or.inr ((hbody (Or.inl rfl)).of_same rfl id id)
  | reqError | throws => exact Or.inl rfl

/-- A request object that has neither a body to read nor output to wait for. -/
theorem equipped_withHandler {h : Handler} (hput : h.request.kind ≠ .put)
    (hlists : h.request.kind = .get → h.HasListing) : Equipped (c.withHandler h) where
  starts _ r hr hput' := by
    cases hr
    exact absurd hput' hput
  lists r hr hget := by
    cases hr
    exact hlists hget

theorem Equipped.produce (h : Equipped c) (sys : Sys) : Equipped (c.produce sys).2 := by
  unfold Client.produce
  split_ifs with hworkOut herror
  · exact h
  · unfold readErrorPage
    dsimp only
    split_ifs
    · exact h.of_same rfl id fun _ => Or.inl rfl
    · exact h.of_same rfl id id
  · cases hrequest : c.request with
    | none => exact h
    | some request =>
      have hsame : Equipped (c.withHandler ⟨c.context, request⟩) := h.of_same hrequest.symm id id
      have hwork : Equipped (c.withHandler (Handler.workOut sys ⟨c.context, request⟩).2) := by
        unfold Handler.workOut
        cases hkind : request.kind with
        | get =>
          have hkept : (Handler.workOutGET sys ⟨c.context, request⟩).2.request.kind = .get :=
            (Handler.kind_workOutGET sys ⟨c.context, request⟩).trans hkind
          refine equipped_withHandler (fun hput => ?_)
            fun _ => (h.lists request hrequest hkind).workOutGET sys
          rw [show (Handler.workOutGET sys ⟨c.context, request⟩).2.request.kind = _ from hput] at hkept
          cases hkept
        | post =>
          refine equipped_withHandler (fun hput => ?_) fun _ => Or.inl rfl
          rw [show request.kind = .put from hput] at hkind
          cases hkind
        | delete | put | head => exact hsame
      dsimp only
      generalize Handler.workOut sys ⟨c.context, request⟩ = r at hwork ⊢
      obtain ⟨ret, h'⟩ := r
      cases ret <;> exact hwork

theorem Equipped.handleSocketOut (h : Equipped c) (sys : Sys) :
    Equipped (c.handleSocketOut sys).2 := by
  have hproduce := h.produce sys
  unfold Client.handleSocketOut
  generalize c.produce sys = r at hproduce ⊢
  obtain ⟨ret, c'⟩ := r
  cases ret with
  | reqContinue =>
    show Equipped (c'.sendResponse sys).2
    rcases sendResponse_cases c' sys with heq | ⟨n, heq⟩ <;> rw [heq]
    · exact hproduce
    · refine hproduce.of_same ?_ ?_ ?_ <;> unfold takeResponse <;> split_ifs <;> first | rfl | exact id
  | reqDone | reqError | throws => exact hproduce

/-- A timeout is answered with an error, and all work is done. -/
theorem equipped_respondTimeout (herror : c.hasError = true) (sys : Sys) :
    Equipped (c.respondTimeout sys).2 := by
  have hstatus := hasError_respondTimeout herror sys
  have hworkIn : (c.respondTimeout sys).2.context.requestState.workIn = true := by
    unfold respondTimeout
    extract_lets c₁
    obtain ⟨f, heq, -, hpage⟩ := loadErrorPage_cases c₁ sys
    have hset : f.requestState.workIn = true := by
      rcases hpage with ⟨-, hstate⟩ | ⟨-, hstate⟩ <;> rw [hstate] <;> rfl
    rw [heq]
    rcases switchToWrite_cases (c₁.withPage f).render sys with heq | heq <;> rw [heq] <;> exact hset
  constructor
  · intro hunset
    rw [hworkIn] at hunset
    cases hunset
  · exact fun _ _ _ => Or.inr (Or.inl hstatus)

theorem Equipped.timeoutCheck (h : Equipped c) (sys : Sys) : Equipped (c.timeoutCheck sys).2 := by
  unfold Client.timeoutCheck
  split_ifs
  · exact equipped_respondTimeout rfl sys
  · exact equipped_respondTimeout rfl sys
  · exact h
  · exact equipped_respondTimeout rfl sys
  · exact h

/-- A GET whose CGI may still answer has nothing to put out itself. -/
theorem Equipped.handleCGIIn (h : Equipped c) (hresponds : Responds c)
    (hsocket : c.context.cgiSocket ≠ -1) (sys : Sys) : Equipped (c.handleCGIIn sys).2 := by
  obtain ⟨-, r, hr, hkind⟩ := hresponds.socket hsocket
  have hreads := Handler.readsCGI_readCGI sys ⟨c.context, r⟩
  unfold Client.handleCGIIn
  rw [hr]
  dsimp only
  rw [Handler.CGIIn_eq sys hkind]
  have hkept : (Handler.readCGI sys ⟨c.context, r⟩).2.request.kind = r.kind := by
    obtain ⟨f, hf⟩ := hreads.fields
    rw [hf]
    rfl
  refine equipped_withHandler (fun hput => ?_) fun hget => ?_
  · rw [hkept] at hput
    rcases hkind with heq | heq <;> rw [heq] at hput <;> cases hput
  · rcases hresponds.cgi hsocket with hcgiIn | hworkOut
    · have hsame : Handler.readCGI sys ⟨c.context, r⟩ = (.reqContinue, ⟨c.context, r⟩) := if_pos hcgiIn
      rw [hsame]
      exact h.lists r hr (hkept.symm.trans hget)
    · exact Or.inl (hreads.le.workOut hworkOut)

theorem Equipped.handleCGIOut (h : Equipped c) (sys : Sys) (hkind : ∀ r, c.request = some r →
    r.kind = .get ∨ r.kind = .post) : Equipped (c.handleCGIOut sys).2 := by
  unfold Client.handleCGIOut
  cases hr : c.request with
  | none => exact h
  | some r =>
    dsimp only
    unfold Handler.CGIOut
    rcases hkind r hr with hget | hpost
    · rw [hget]
      exact h.of_same hr.symm id id
    · rw [hpost]
      obtain ⟨f, hf⟩ := (Handler.reads_readBody sys ⟨c.context, r⟩).fields
      have hkept : (Handler.readBody sys ⟨c.context, r⟩).2.request.kind = .post := by
        rw [hf]
        exact hpost
      refine equipped_withHandler (fun hput => ?_) fun hget => ?_
      · rw [hput] at hkept
        cases hkept
      · rw [hget] at hkept
        cases hkept

/-! ## Steps -/

theorem Phase.orderly {c : Client} (h : Phase c) (hopen : c.closed = false) : Orderly c := by
  rcases h with hclosed | hhead | hbody | hresponds
  · rw [hopen] at hclosed
    cases hclosed
  · exact Or.inl hhead
  · exact Or.inr hbody.clientRead
  · exact Or.inr hresponds.clientRead

/-- No call writes the configuration. -/
theorem server_step (h : Phase c) (e : Event) : (c.step e).context.server = c.context.server := by
  cases hclosed : c.closed with
  | true => rw [show c.step e = c from if_pos hclosed]
  | false =>
    unfold Client.step
    rw [if_neg (by rw [hclosed]; exact Bool.false_ne_true)]
    cases e with
    | clientIn sys =>
      rcases ((h.orderly hclosed).handleSocketIn sys).2 with hsteady | ⟨-, hattaches⟩
      · exact hsteady.server
      · exact hattaches.server
    | clientOut sys => exact (steady_handleSocketOut c sys).server
    | cgiIn sys =>
      dsimp only
      split_ifs with hsocket
      · rfl
      · exact (steady_handleCGIIn sys hsocket).server
    | cgiOut sys =>
      dsimp only
      split_ifs
      · rfl
      · exact (steady_handleCGIOut c sys).server
    | timeoutCheck sys => exact (steady_timeoutCheck c sys).server
    | environment fs => rfl

theorem Equipped.settle {r : Ret × Client} (h : Equipped r.2) : Equipped (settle r) :=
  h.of_same rfl id id

theorem Equipped.settleCGI {r : Ret × Client} (h : Equipped r.2) : Equipped (settleCGI r) :=
  h.of_same rfl id id

/-- The head goes on, and with it, when it is complete, the body. -/
theorem AwaitsHead.equipped_handleRead (h : AwaitsHead c) (sys : Sys) :
    (settle (c.handleRead sys)).closed = true ∨ Equipped (settle (c.handleRead sys)) := by
  have hparse := h.equipped_parseRequest sys
  obtain ⟨-, -, -, hgoesOn⟩ := h.parseRequest sys
  unfold Client.handleRead
  rw [if_neg h.not_clientRead]
  generalize c.parseRequest sys = r at hparse hgoesOn ⊢
  obtain ⟨ret, c₁⟩ := r
  cases ret with
  | reqDone =>
    rcases hgoesOn rfl with hready | hbody
    · dsimp only
      rw [handleRequest_of_workIn sys hready.workIn]
      exact Or.inr (hparse.startResponse sys).settle
    · exact hbody.equipped_handleRequest hparse sys
  | reqContinue | reqError | throws => exact Or.inr hparse.settle

theorem Equipped.handleSocketIn (h : Equipped c) (hopen : c.closed = false) (hphase : Phase c)
    (sys : Sys) : (Client.settle (c.handleSocketIn sys)).closed = true ∨
      Equipped (Client.settle (c.handleSocketIn sys)) := by
  rcases handleSocketIn_cases c sys with ⟨-, -, hret, -⟩ | ⟨-, buffer, timestamp, -, heq, htime⟩
  · exact Or.inl (decide_eq_true hret)
  · have hread : Equipped (c.withRead buffer timestamp) := h.of_same rfl id id
    have hcomplete : c.context.requestState.isClientReadComplete = true →
        c.handleSocketIn sys = (c.withRead buffer timestamp).handleRequest sys :=
      fun hclient => heq.trans (if_pos hclient)
    rcases hphase with hclosed | hhead | hbody | hresponds
    · rw [hopen] at hclosed
      cases hclosed
    · have hhead' : AwaitsHead (c.withRead buffer timestamp) := { hhead with
        timestamp := by
          rw [withRead, htime (Bool.eq_false_iff.mpr hhead.not_clientRead)]
          exact hhead.timestamp }
      rw [heq]
      exact hhead'.equipped_handleRead sys
    · have hbody' : AwaitsBody (c.withRead buffer timestamp) := { hbody with }
      rw [hcomplete hbody.clientRead]
      exact hbody'.equipped_handleRequest hread sys
    · rw [hcomplete hresponds.clientRead,
        @handleRequest_of_workIn (c.withRead buffer timestamp) sys hresponds.workIn]
      exact Or.inr (hread.startResponse sys).settle

/-- What `processing` left is there until it is used.  By cases on the event, where one of a CGI comes to a
client that responds. -/
theorem Equipped.step (h : Equipped c) (hopen : c.closed = false) (hphase : Phase c) (e : Event) :
    (c.step e).closed = true ∨ Equipped (c.step e) := by
  have hresponds : c.context.cgiSocket ≠ -1 → Responds c := by
    rcases hphase with hclosed | hhead | hbody | hresponds
    · rw [hopen] at hclosed
      cases hclosed
    · exact fun hsocket => absurd hhead.cgiSocket hsocket
    · exact fun hsocket => absurd hbody.cgiSocket hsocket
    · exact fun _ => hresponds
  unfold Client.step
  rw [if_neg (by rw [hopen]; exact Bool.false_ne_true)]
  cases e with
  | clientIn sys => exact h.handleSocketIn hopen hphase sys
  | clientOut sys => exact Or.inr (h.handleSocketOut sys).settle
  | cgiIn sys =>
    by_cases hsocket : c.context.cgiSocket = -1
    · exact Or.inr (by simpa only [if_pos hsocket] using h)
    · dsimp only
      rw [if_neg hsocket]
      exact Or.inr (h.handleCGIIn (hresponds hsocket) hsocket sys).settleCGI
  | cgiOut sys =>
    by_cases hsocket : c.context.cgiSocket = -1
    · exact Or.inr (by simpa only [if_pos hsocket] using h)
    · have hkind : ∀ r, c.request = some r → r.kind = .get ∨ r.kind = .post := by
        intro r hr
        obtain ⟨-, r', hr', hkind⟩ := (hresponds hsocket).socket hsocket
        obtain rfl : r = r' := Option.some.inj (hr.symm.trans hr')
        exact hkind
      dsimp only
      rw [if_neg hsocket]
      exact Or.inr (h.handleCGIOut sys hkind).settleCGI
  | timeoutCheck sys => exact Or.inr (h.timeoutCheck sys).settle
  | environment fs => exact Or.inr (h.of_same rfl id id)

/-- The head is done with, or its target, as far as it is read, begins with a slash. -/
theorem target_step (hphase : Phase c) (h : HeadDone c ∨ c.context.OriginForm) (e : Event) :
    HeadDone (c.step e) ∨ (c.step e).context.OriginForm := by
  by_cases hdone : HeadDone c
  · exact Or.inl (hdone.step e)
  · have horigin := h.resolve_left hdone
    have hhead := hphase.awaitsHead hdone
    have hopen : c.closed = false := Bool.eq_false_iff.mpr fun hclosed => hdone (Or.inl hclosed)
    have hwaits := hhead.waits hopen e
    generalize c.step e = c' at hwaits
    cases hwaits with
    | same => exact Or.inr horigin
    | environment fs => exact Or.inr horigin
    | timesOut sys =>
      exact Or.inl (Or.inr ((steady_respondTimeout
        ((c.setStatusCode statusRequestTimeout).setState RequestState.setReadComplete) sys).clientRead rfl))
    | reads sys =>
      rcases handleSocketIn_cases c sys with ⟨-, -, hret, -⟩ | ⟨-, buffer, timestamp, -, heq, htime⟩
      · exact Or.inl (Or.inl (decide_eq_true hret))
      · have hread : AwaitsHead (c.withRead buffer timestamp) := { hhead with
          timestamp := by
            rw [withRead, htime (Bool.eq_false_iff.mpr hhead.not_clientRead)]
            exact hhead.timestamp }
        rw [heq]
        have htarget := RequestContext.originForm_parseHead
          (show (c.withRead buffer timestamp).context.OriginForm from horigin)
        have hends := hread.headEnds sys
        obtain ⟨-, -, -, hgoesOn⟩ := hread.parseRequest sys
        unfold Client.handleRead
        rw [if_neg hread.not_clientRead]
        generalize (c.withRead buffer timestamp).parseRequest sys = r at hends hgoesOn ⊢
        obtain ⟨ret, c₁⟩ := r
        cases ret with
        | reqContinue =>
          refine Or.inr ?_
          cases hends with
          | waits f requestLine hparse =>
            rw [hparse] at htarget
            exact htarget
          | resolved f _ _ hret => exact absurd rfl hret
        | reqDone =>
          refine Or.inl (Or.inr ?_)
          have hclient : c₁.context.requestState.isClientReadComplete = true :=
            (hgoesOn rfl).elim (fun hready => hready.clientRead) fun hbody => hbody.clientRead
          exact (retains_handleRequest c₁ sys).clientRead hclient
        | reqError | throws => exact Or.inl (Or.inl rfl)

/-- What holds of a client after any events, on a server that was configured. -/
structure Regular (server : Server) (c : Client) : Prop where
  listening : (server.serverBlocks.find? c.connectSocket).isSome = true
  phase : Phase c
  outputSafe : OutputSafe c
  target : HeadDone c ∨ c.context.OriginForm
  equipped : c.closed = true ∨ Equipped c
  server : c.context.server = server

theorem regular_init (server : Server) (fs : FileSystem) {connectSocket : Fd}
    (hlistening : (server.serverBlocks.find? connectSocket).isSome = true) (fd : Fd) (now : Int) :
    Regular server (init server fs connectSocket fd now) where
  server := rfl
  listening := hlistening
  phase := Or.inr (Or.inl (awaitsHead_init server fs connectSocket fd now))
  outputSafe := .of_request_none rfl
  target := Or.inr fun hline => Bool.noConfusion hline
  equipped := Or.inr (equipped_of_none rfl)

/-- One event of a regular client.  Each part of the invariant has its own step lemma, and the parts use one
another. -/
theorem Regular.step {server : Server} (h : Regular server c) (e : Event) :
    Regular server (c.step e) where
  server := (server_step h.phase e).trans h.server
  listening := by
    rw [(sockets_step c e).1]
    exact h.listening
  phase := (phase_step h.phase e).1
  outputSafe := h.outputSafe.step h.phase e
  target := target_step h.phase h.target e
  equipped := by
    cases hclosed : c.closed with
    | true =>
      rw [show c.step e = c from if_pos hclosed]
      exact Or.inl hclosed
    | false =>
      exact (h.equipped.resolve_left (by rw [hclosed]; exact Bool.false_ne_true)).step hclosed h.phase e

/-- A client of a server is regular. -/
theorem Reached.regular {server : Server} (h : Reached server c) : Regular server c := by
  obtain ⟨-, fs, connectSocket, now, es, hlistening, heq⟩ := h
  rw [heq]
  exact Transition.run_invariant (C := fun _ _ => True) (fun _ e hs _ => hs.step e)
    (regular_init server fs hlistening _ now) (Transition.along_of_forall (fun _ _ => trivial) es _)

/-! ## Where exceptions come from -/

/-- The exceptions of a client, each with what it takes: the call that throws, and the state in which it is
made. -/
inductive Faults (c : Client) : Event → Fault → Prop
  /-- `readdir(NULL)`: the path of a GET ends in a slash, and is that of a file. -/
  | readdir {sys : Sys} {r : ARequest} : c.request = some r → r.kind = .get →
      c.context.requestState.workOut = false → c.hasError = false → r.path.isDirFormat = true →
      r.path.isFile = true → Faults c (.clientOut sys) .nullPointer
  /-- `epoll_ctl(-1)`: the last chunk of a PUT to the name of a CGI. -/
  | lastChunk {sys : Sys} {h : Handler} : c.bodyReader (.clientIn sys) = some h →
      h.request.kind = .put → h.request.cgiPath.isSome = true → h.request.chunked = true →
      Handler.IsLastChunk h.context.buffer → Faults c (.clientIn sys) .runtimeError
  /-- `ARequest::CGIOut`: a GET is told that it can write to its CGI. -/
  | cgiOut {sys : Sys} {r : ARequest} : c.context.cgiSocket ≠ -1 → c.request = some r →
      r.kind = .get → Faults c (.cgiOut sys) .logicError

/-- The last chunk of an upload that has no socket to go to. -/
def LosesUpload (h : Handler) : Prop :=
  h.request.kind = .put ∧ h.request.cgiPath.isSome = true ∧ h.request.chunked = true ∧
    Handler.IsLastChunk h.context.buffer

theorem AwaitsBody.handleRequest_throws_iff (h : AwaitsBody c) (hequipped : Equipped c)
    (hctl : ∀ fd, sys.epollCtl fd = true) (fault : Fault) :
    (c.handleRequest sys).1 = .throws fault ↔
      fault = .runtimeError ∧ ∃ h₀, c.bodyHandler = some h₀ ∧ LosesUpload h₀ := by
  obtain ⟨request, hrequest, hkind, heq⟩ := h.handleRequest_eq sys
  have hreader : (Handler.readBody sys ⟨c.context, request⟩).1 = .throws fault ↔
      fault = .runtimeError ∧ LosesUpload ⟨c.context, request⟩ := by
    by_cases hcgi : request.cgiPath.isSome = true
    · have hput : request.kind = .put := hkind.resolve_right fun hpost => by
        rw [hpost.2] at hcgi
        cases hcgi
      rw [(Handler.endsUnsaved_readBody sys hcgi h.cgiSocket
        (hequipped.starts h.workIn request hrequest hput hcgi)).throws]
      exact ⟨fun hand => ⟨hand.1, hput, hcgi, hand.2⟩, fun hand => ⟨hand.1, hand.2.2.2⟩⟩
    · exact iff_of_false (Handler.readBody_ne_throws hctl (fun hsome => absurd hsome hcgi) fault)
        fun hand => hcgi hand.2.2.1
  have hstart := fun c' : Client => c'.startResponse_fst hctl
  rw [heq, h.bodyHandler_eq hrequest]
  simp only [Option.some.injEq, exists_eq_left']
  rw [← hreader]
  generalize Handler.readBody sys ⟨c.context, request⟩ = r
  obtain ⟨ret, h'⟩ := r
  cases ret with
  | reqDone =>
    dsimp only
    rw [hstart]
    exact iff_of_false (fun hret => Ret.noConfusion hret) fun hret => Ret.noConfusion hret
  | reqContinue | reqError | throws => exact Iff.rfl

/-- Nothing is left of the body to read, so that no reader is called and the response is started. -/
theorem Ready.handleRequest_ne_throws (h : Ready c) (hctl : ∀ fd, sys.epollCtl fd = true)
    (fault : Fault) : (c.handleRequest sys).1 ≠ .throws fault := by
  rw [handleRequest_of_workIn sys h.workIn, c.startResponse_fst hctl]
  exact fun hret => Ret.noConfusion hret

theorem AwaitsHead.handleRead_throws_iff (h : AwaitsHead c) (horigin : c.context.OriginForm)
    (hserver : c.context.server.Configured)
    (hlistening : (c.context.server.serverBlocks.find? c.connectSocket).isSome = true)
    (hctl : ∀ fd, sys.epollCtl fd = true) (fault : Fault) :
    (c.handleRead sys).1 = .throws fault ↔
      fault = .runtimeError ∧ ∃ h₀, (c.parsed sys).bind bodyHandler = some h₀ ∧ LosesUpload h₀ := by
  have hparse := parseRequest_ne_throws h horigin hserver hlistening hctl fault
  have hequipped := h.equipped_parseRequest sys
  obtain ⟨-, -, -, hgoesOn⟩ := h.parseRequest sys
  unfold Client.handleRead parsed
  rw [if_neg h.not_clientRead, if_neg h.not_clientRead]
  generalize c.parseRequest sys = r at hparse hequipped hgoesOn ⊢
  obtain ⟨ret, c₁⟩ := r
  have hnone : ¬ (fault = .runtimeError ∧
      ∃ h₀, (none : Option Client).bind bodyHandler = some h₀ ∧ LosesUpload h₀) := by
    rintro ⟨-, h₀, hsome, -⟩
    cases hsome
  cases ret with
  | reqDone =>
    dsimp only
    rw [Option.bind_some]
    rcases hgoesOn rfl with hready | hbody
    · refine iff_of_false (hready.handleRequest_ne_throws hctl fault) ?_
      rintro ⟨-, h₀, hsome, -⟩
      rw [bodyHandler_of_workIn hready.workIn] at hsome
      cases hsome
    · exact hbody.handleRequest_throws_iff hequipped hctl fault
  | reqContinue | reqError | throws => exact iff_of_false hparse hnone

theorem Regular.handleSocketIn_throws_iff {server : Server} (h : Regular server c)
    (hopen : c.closed = false) (hserver : server.Configured) (hctl : ∀ fd, sys.epollCtl fd = true)
    (fault : Fault) : (c.handleSocketIn sys).1 = .throws fault ↔
      fault = .runtimeError ∧ ∃ h₀, c.bodyReader (.clientIn sys) = some h₀ ∧ LosesUpload h₀ := by
  have hequipped := h.equipped.resolve_left (by rw [hopen]; exact Bool.false_ne_true)
  unfold bodyReader
  dsimp only
  rcases handleSocketIn_cases c sys with ⟨hnone, -, -, hnot⟩ | ⟨-, buffer, timestamp, hsome, heq, htime⟩
  · rw [hnone]
    refine iff_of_false (fun hthrows => ?_) fun ⟨_, h₀, hsome, _⟩ => Option.not_mem_none h₀ hsome
    rw [not_or, not_exists] at hnot
    unfold Client.handleSocketIn readSocket at hthrows
    rw [if_neg hnot.1] at hthrows
    cases hrecv : sys.recv with
    | data packet => exact hnot.2 packet hrecv
    | closed | error =>
      rw [hrecv] at hthrows
      cases hthrows
  · have hread : Equipped (c.withRead buffer timestamp) := hequipped.of_same rfl id id
    have hcomplete : c.context.requestState.isClientReadComplete = true →
        (c.withRead buffer timestamp).parsed sys = some (c.withRead buffer timestamp) ∧
          (c.withRead buffer timestamp).handleRead sys =
            (c.withRead buffer timestamp).handleRequest sys :=
      fun hclient => ⟨if_pos hclient, if_pos hclient⟩
    rw [heq, hsome, Option.bind_some]
    rcases h.phase with hclosed | hhead | hbody | hresponds
    · rw [hopen] at hclosed
      cases hclosed
    · have hhead' : AwaitsHead (c.withRead buffer timestamp) := { hhead with
        timestamp := by
          rw [withRead, htime (Bool.eq_false_iff.mpr hhead.not_clientRead)]
          exact hhead.timestamp }
      have horigin : c.context.OriginForm := h.target.resolve_left fun hdone => by
        rcases hdone with hclosed | hclient
        · rw [hopen] at hclosed
          cases hclosed
        · exact hhead.not_clientRead hclient
      have hsame : (c.withRead buffer timestamp).context.server = server := h.server
      refine hhead'.handleRead_throws_iff horigin (hsame ▸ hserver) ?_ hctl fault
      rw [hsame]
      exact h.listening
    · have hbody' : AwaitsBody (c.withRead buffer timestamp) := { hbody with }
      obtain ⟨hparsed, hhandle⟩ := hcomplete hbody.clientRead
      rw [hparsed, hhandle]
      exact hbody'.handleRequest_throws_iff hread hctl fault
    · have hready : Ready (c.withRead buffer timestamp) := { hresponds.toReady with }
      obtain ⟨hparsed, hhandle⟩ := hcomplete hresponds.clientRead
      rw [hparsed, hhandle]
      refine iff_of_false (hready.handleRequest_ne_throws hctl fault) ?_
      rintro ⟨-, h₀, hsome, -⟩
      rw [Option.bind_some, bodyHandler_of_workIn hready.workIn] at hsome
      cases hsome

/-- Sending fails with an answer, and not with an exception. -/
theorem sendResponse_ne_throws (c : Client) (sys : Sys) (fault : Fault) :
    (c.sendResponse sys).1 ≠ .throws fault := by
  have hret : ∀ c : Client, c.sendRet ≠ .throws fault := by
    intro c
    unfold sendRet
    split_ifs <;> exact fun hret => Ret.noConfusion hret
  unfold sendResponse
  dsimp only
  split_ifs
  · cases sys.send with
    | error => exact fun hret => Ret.noConfusion hret
    | accepted n => exact hret _
  · exact hret c

/-- What is asked of a request object that has output. -/
theorem Regular.workOut_throws_iff {server : Server} (h : Regular server c) (hopen : c.closed = false)
    {r : ARequest} (hr : c.request = some r) (hworkOut : c.context.requestState.workOut = false)
    (herror : c.hasError = false) (fault : Fault) :
    (Handler.workOut sys ⟨c.context, r⟩).1 = .throws fault ↔
      fault = .nullPointer ∧ r.kind = .get ∧ r.path.isDirFormat = true ∧ r.path.isFile = true := by
  have hequipped := h.equipped.resolve_left (by rw [hopen]; exact Bool.false_ne_true)
  have hsafe : r.kind.overrides .workOut = true := by
    by_contra hnot
    rcases h.outputSafe r hr (Bool.eq_false_iff.mpr hnot) with hset | hset
    · rw [hworkOut] at hset
      cases hset
    · rw [herror] at hset
      cases hset
  unfold Handler.workOut
  cases hkind : r.kind with
  | get =>
    have hlists : r.path.isDirFormat = true → (r.directory = none ↔ r.path.isFile = true) := by
      rcases hequipped.lists r hr hkind with hset | hset | hlists
      · rw [show c.context.requestState.workOut = true from hset] at hworkOut
        cases hworkOut
      · rw [show c.hasError = true from hset] at herror
        cases herror
      · exact hlists
    dsimp only
    rw [Handler.workOutGET_throws_iff]
    exact ⟨fun hand => ⟨hand.1, rfl, hand.2.1, (hlists hand.2.1).mp hand.2.2⟩,
      fun hand => ⟨hand.1, hand.2.2.1, (hlists hand.2.2.1).mpr hand.2.2.2⟩⟩
  | post =>
    exact iff_of_false (fun hret => Ret.noConfusion hret) fun hand => RequestKind.noConfusion hand.2.1
  | delete | put | head =>
    rw [hkind] at hsafe
    cases hsafe

theorem Regular.handleSocketOut_throws_iff {server : Server} (h : Regular server c)
    (hopen : c.closed = false) (fault : Fault) :
    (c.handleSocketOut sys).1 = .throws fault ↔ Faults c (.clientOut sys) fault := by
  have hsend := fun c' : Client => c'.sendResponse_ne_throws sys fault
  unfold Client.handleSocketOut Client.produce
  split_ifs with hworkOut herror
  · refine iff_of_false (hsend c) ?_
    rintro (⟨-, -, hunset, -⟩ | - | -)
    rw [show c.context.requestState.workOut = true from hworkOut] at hunset
    cases hunset
  · refine iff_of_false (hsend _) ?_
    rintro (⟨-, -, -, hfine, -⟩ | - | -)
    rw [herror] at hfine
    cases hfine
  · have hunset : c.context.requestState.workOut = false := Bool.eq_false_iff.mpr hworkOut
    have hfine : c.hasError = false := Bool.eq_false_iff.mpr herror
    cases hr : c.request with
    | none =>
      refine iff_of_false (hsend c) ?_
      rintro (⟨hsome, -⟩ | - | -)
      rw [hr] at hsome
      cases hsome
    | some r =>
      have hwork := @Regular.workOut_throws_iff c sys server h hopen r hr hunset hfine fault
      have hfaults : Faults c (.clientOut sys) fault ↔
          (Handler.workOut sys ⟨c.context, r⟩).1 = .throws fault := by
        rw [hwork]
        constructor
        · rintro (⟨hr', hget, -, -, hdir, hfile⟩ | - | -)
          obtain rfl := Option.some.inj (hr'.symm.trans hr)
          exact ⟨rfl, hget, hdir, hfile⟩
        · rintro ⟨rfl, hget, hdir, hfile⟩
          exact .readdir hr hget hunset hfine hdir hfile
      rw [hfaults]
      dsimp only
      generalize Handler.workOut sys ⟨c.context, r⟩ = answer
      obtain ⟨ret, h'⟩ := answer
      cases ret with
      | throws fault' => exact Iff.rfl
      | reqContinue | reqDone | reqError =>
        exact iff_of_false (hsend _) fun hret => Ret.noConfusion hret

theorem respondTimeout_fst (c : Client) (hctl : ∀ fd, sys.epollCtl fd = true) :
    (c.respondTimeout sys).1 = .reqContinue := by
  have hswitch : ∀ c : Client, (c.switchToWrite sys).1 = .reqContinue := by
    intro c
    unfold switchToWrite
    rw [if_pos (hctl c.fd)]
  exact hswitch _

/-- A check of the timeouts throws only where the switch to writing does. -/
theorem timeoutCheck_ne_throws (c : Client) (hctl : ∀ fd, sys.epollCtl fd = true) (fault : Fault) :
    (c.timeoutCheck sys).1 ≠ .throws fault := by
  have hrespond : ∀ c : Client, (c.respondTimeout sys).1 ≠ .throws fault := by
    intro c
    rw [c.respondTimeout_fst hctl]
    exact fun hret => Ret.noConfusion hret
  unfold Client.timeoutCheck
  split_ifs
  · exact hrespond _
  · exact hrespond _
  · exact fun hret => Ret.noConfusion hret
  · exact hrespond _
  · exact fun hret => Ret.noConfusion hret

/-- The client of a socket to a CGI responds, and its class reads from the socket. -/
theorem Regular.owner {server : Server} (h : Regular server c) (hopen : c.closed = false)
    (hsocket : c.context.cgiSocket ≠ -1) :
    ∃ r, c.request = some r ∧ (r.kind = .get ∨ r.kind = .post) := h.phase.owner hopen hsocket

/-- **The exceptions of a client.**  A call into an open client of a server that was configured, with a
kernel that registers the sockets it is asked to, ends in an exception if and only if it is one of
`Faults`. -/
theorem Regular.callAnswer_throws_iff {server : Server} (h : Regular server c)
    (hopen : c.closed = false) (hserver : server.Configured) {e : Event}
    (hctl : e.Registers) (fault : Fault) : c.callAnswer e = .throws fault ↔ Faults c e fault := by
  cases e with
  | clientIn sys =>
    show (c.handleSocketIn sys).1 = _ ↔ _
    rw [h.handleSocketIn_throws_iff hopen hserver hctl]
    constructor
    · rintro ⟨rfl, h₀, hsome, hput, hcgi, hchunked, hlast⟩
      exact .lastChunk hsome hput hcgi hchunked hlast
    · rintro (- | ⟨hsome, hput, hcgi, hchunked, hlast⟩ | -)
      exact ⟨rfl, _, hsome, hput, hcgi, hchunked, hlast⟩
  | clientOut sys => exact h.handleSocketOut_throws_iff hopen fault
  | cgiIn sys =>
    refine iff_of_false ?_ fun hfaults => by cases hfaults
    unfold callAnswer
    dsimp only
    split_ifs with hsocket
    · exact fun hret => by cases hret
    · obtain ⟨r, hr, hkind⟩ := h.owner hopen hsocket
      unfold handleCGIIn
      rw [hr]
      dsimp only
      rw [Handler.CGIIn_eq sys hkind]
      exact Handler.readCGI_ne_throws sys _ fault
  | cgiOut sys =>
    by_cases hsocket : c.context.cgiSocket = -1
    · rw [show c.callAnswer (.cgiOut sys) = .reqContinue from if_pos hsocket]
      refine iff_of_false (fun hret => Ret.noConfusion hret) ?_
      rintro (- | - | ⟨hne, -⟩)
      exact hne hsocket
    · obtain ⟨r, hr, hkind⟩ := h.owner hopen hsocket
      rw [show c.callAnswer (.cgiOut sys) = (c.handleCGIOut sys).1 from if_neg hsocket]
      unfold handleCGIOut Handler.CGIOut
      rw [hr]
      dsimp only
      rcases hkind with hget | hpost
      · rw [hget]
        constructor
        · rintro ⟨⟩
          exact .cgiOut hsocket hr hget
        · rintro (- | - | -)
          rfl
      · rw [hpost]
        refine iff_of_false (Handler.readBody_ne_throws hctl (fun _ => hsocket) fault) ?_
        rintro (- | - | ⟨-, hr', hget⟩)
        obtain rfl := Option.some.inj (hr'.symm.trans hr)
        rw [hpost] at hget
        cases hget
  | timeoutCheck sys =>
    exact iff_of_false (c.timeoutCheck_ne_throws hctl fault) fun hfaults => by cases hfaults
  | environment fs =>
    exact iff_of_false (fun hret => Ret.noConfusion hret) fun hfaults => by cases hfaults

end Client

end Webserv
