import Webserv.Draining
import Webserv.Effects.Starting
import Webserv.HeadRequests
import Mathlib.Algebra.GroupWithZero.Nat

/-!
# The length of a response

`Content-Length` is set where a file is opened or an error page is chosen, and the body comes from somewhere
else: from the `Response`, or from a stream that is read as long as `WORK_OUT` is clear.

* `Client.Pending`: how many bytes are still to be read.
* `Client.Started`: what was put in the stream after the head, with what is still to be read, has the length
  that the head announces.
* `framed_run`: a response that is sent whole has the length it announces, when no custom page is announced
  that is not read.
* `not_framed`: a custom page is announced for DELETE, and is not sent.

## Why bytes are counted that are not there yet

The head is rendered with a number in it when nothing of the body has been read.  From then on three things
change: bytes are read from a file or a page, bytes go from the buffer to the socket, and at the end nothing
is left.  The number that stays is the sum of what is in the stream behind the head and what is still to be
read.  `Pending` says how many these are for the four situations in which a client can be, `Pending.produce`
that reading moves bytes from the one to the other, and `Started` that the sum is the announced number.
When `handleOut` is done, nothing is pending and nothing waits (`handleSocketOut_done`), and the sum is what
was sent.

## Why a page can be announced and not sent

The size of an error page goes into the head when the page is chosen.  Its bytes are read by `handleOut`, as
long as `WORK_OUT` is clear.  For PUT, POST and DELETE the constructor has set this flag, and nobody unsets
it, though the source has a line that tries to.  So the announced bytes never come.  `skipsPage` is this
situation, and `ReadsPages` its negation along a run.

## Why the files are short

The announced number is an `int`.  A file of 2^31 bytes or more is announced wrongly whatever else happens,
which is a matter of its own (`AnnouncedSize`); here all files are shorter.
-/

namespace Webserv

/-! ## Lengths of texts -/

theorem length_bytes (s : String) : (bytes s).length = s.utf8ByteSize := by
  have hsize : s.utf8ByteSize = s.toByteArray.size := rfl
  rw [hsize, ← String.utf8Encode_toList, List.utf8Encode, List.size_toByteArray, bytes]

theorem length_page (pieces : List String) :
    (page pieces).length = (pieces.map String.utf8ByteSize).sum := by
  rw [page, List.length_flatMap]
  congr 2
  funext s
  exact length_bytes s

theorem length_utf8_le (l : List Char) : (l.flatMap String.utf8EncodeChar).length ≤ 4 * l.length := by
  induction l with
  | nil => exact Nat.le_refl 0
  | cons c l ih =>
    have hsize := c.utf8Size_le_four
    rw [List.flatMap_cons, List.length_append, List.length_cons, String.length_utf8EncodeChar]
    omega

/-- A number of at most `k` digits. -/
theorem length_numToStr_le {n k : Nat} (hk : 0 < k) (h : n < 10 ^ k) :
    (numToStr n).length ≤ 4 * k := by
  have hdigits : (toString (n : Int)).toList = Nat.toDigits 10 n := Nat.toList_repr
  have hlength : (Nat.toDigits 10 n).length ≤ k :=
    (Nat.length_toDigits_le_iff (by decide) hk).mpr h
  have hbytes := length_utf8_le (Nat.toDigits 10 n)
  rw [numToStr, bytes, hdigits]
  omega

theorem length_statusCodeToMsg_le (code : Nat) : (statusCodeToMsg code).length ≤ 200 := by
  have hmessages : ∀ m ∈ messages, m.2.utf8ByteSize ≤ 200 := by decide +kernel
  rw [statusCodeToMsg, length_bytes]
  cases hlookup : messages.lookup code with
  | none => exact (show "Invalid Status Code".utf8ByteSize ≤ 200 by decide +kernel)
  | some m =>
    obtain ⟨l₁, l₂, heq, -⟩ := List.lookup_eq_some_iff.mp hlookup
    exact hmessages (code, m) (heq ▸ List.mem_append_right _ List.mem_cons_self)

theorem length_htmlError (code message : Bytes) :
    (htmlError code message).length = (htmlError [] []).length + code.length + message.length := by
  obtain ⟨x, y, z, hpage⟩ : ∃ x y z, ∀ code message : Bytes,
      htmlError code message = x ++ code ++ y ++ message ++ z := ⟨_, _, _, fun _ _ => rfl⟩
  simp only [hpage, List.length_append, List.length_nil]
  omega

theorem length_htmlError_nil_le : (htmlError [] []).length ≤ 2000 := by
  unfold htmlError
  simp only [List.length_append, List.length_nil, length_page, length_bytes]
  decide +kernel

/-- The length of a built-in page is an `int`. -/
theorem toInt32_length_errorBody {code : Nat} (h : isErrorCode code = true) :
    toInt32 (Client.errorBody code).length = (Client.errorBody code).length := by
  have hcode : code < 10 ^ 3 := by
    rw [isErrorCode, Bool.and_eq_true, decide_eq_true_iff, decide_eq_true_iff] at h
    omega
  have hdigits := length_numToStr_le (by decide) hcode
  have hmessage := length_statusCodeToMsg_le code
  have hpage := length_htmlError_nil_le
  have hlength := length_htmlError (numToStr code) (statusCodeToMsg code)
  have hmax : int32Max = 2 ^ 31 - 1 := rfl
  rw [Client.errorBody]
  exact toInt32_of_range (by omega) (by omega)

/-! ## Files and streams -/

/-- Every file is shorter than `2 ^ 31` bytes, so that its size survives the conversion to `int`. -/
def FileSystem.Short (fs : FileSystem) : Prop :=
  ∀ path n content, fs.node path = some n → n.kind = .regular content → content.length < 2 ^ 31

namespace IStream

/-- The stream is open, and fails only at its end: what is left of a file is read to the last byte. -/
structure Reads (s : IStream) : Prop where
  isOpen : s.isOpen = true
  failed : s.failed = true → s.rest = []

/-- What a read gives comes off the rest, and it gives nothing only at the end. -/
theorem Reads.read {s : IStream} (h : s.Reads) {n : Nat} (hn : 0 < n) :
    (s.read n).2.Reads ∧ s.rest = (s.read n).1 ++ (s.read n).2.rest ∧
      ((s.read n).1 = [] → s.rest = []) := by
  unfold IStream.read
  split_ifs with hgood
  · refine ⟨⟨h.isOpen, fun hfailed => ?_⟩, (List.take_append_drop n s.rest).symm, fun hnil => ?_⟩
    · exact List.drop_eq_nil_of_le (of_decide_eq_true hfailed).le
    · exact (List.take_eq_nil_iff.mp hnil).resolve_left (by omega)
  · have hfailed : s.failed = true := by
      by_contra hnot
      exact hgood ⟨h.isOpen, hnot⟩
    exact ⟨⟨h.isOpen, fun _ => h.failed hfailed⟩, (List.nil_append _).symm, fun _ => h.failed hfailed⟩

/-- A regular file is opened with the bytes that `stat` has counted. -/
theorem openAt_of_stat {s : IStream} {sys : Sys} {fs : FileSystem} {p q : Path}
    (hstat : p.stat sys fs = some q) (hfile : q.isFile = true) (hclosed : s.isOpen = false)
    (hopen : (s.openAt sys fs q.str).isOpen = true) :
    (s.openAt sys fs q.str).Reads ∧ q.size = (s.openAt sys fs q.str).rest.length ∧
      (fs.Short → (s.openAt sys fs q.str).rest.length < 2 ^ 31) := by
  have hstr : q.str = p.str := Path.stat_str hstat
  obtain ⟨st, hst, rfl⟩ := Option.map_eq_some_iff.mp hstat
  rw [Sys.stat] at hst
  split_ifs at hst
  obtain ⟨n, hn, rfl⟩ := Option.map_eq_some_iff.mp hst
  have hnode : fs.node (cstr p.str) = some n := hn
  obtain ⟨content, hkind⟩ : ∃ content, n.kind = .regular content := by
    have hreg : (Node.stat n).isReg = true := hfile
    rw [Node.stat] at hreg
    cases hkind : n.kind with
    | regular content => exact ⟨content, rfl⟩
    | directory entries => simp [hkind] at hreg
    | other => simp [hkind] at hreg
  have hsize : (({ p with st := some n.stat } : Path).size : Int) = content.length := by
    show ((Node.stat n).size : Int) = content.length
    rw [Node.stat, hkind]
  unfold openAt at hopen ⊢
  rw [hclosed, if_neg Bool.false_ne_true] at hopen ⊢
  by_cases hfails : sys.openFails (cstr p.str) = true
  · rw [if_pos hfails] at hopen
    exact absurd hopen Bool.false_ne_true
  rw [if_neg hfails, hnode] at hopen ⊢
  dsimp only at hopen ⊢
  by_cases hreadable : n.readable = true
  · rw [if_pos hreadable, hkind]
    exact ⟨⟨rfl, nofun⟩, hsize, fun hshort => hshort _ n content hnode hkind⟩
  · rw [if_neg hreadable] at hopen
    exact absurd hopen Bool.false_ne_true

end IStream

/-- No body, and no length: what a response is before anything is announced in it. -/
structure Response.Plain (r : Response) : Prop where
  body : r.body = []
  length : r.headers.find? headerContentLength = none

theorem Response.plain_init : Response.init.Plain := ⟨rfl, rfl⟩

theorem Response.Plain.setStatusCode {r : Response} (h : r.Plain) (code : Nat) :
    (r.setStatusCode code).Plain := ⟨h.body, h.length⟩

theorem Response.Plain.setHeader {r : Response} (h : r.Plain) {key : Bytes}
    (hkey : headerContentLength ≠ key) (value : Bytes) : (r.setHeader key value).Plain where
  body := h.body
  length := by
    rw [Response.setHeader_headers, OrderedMap.find?_insert_of_ne _ hkey]
    exact h.length

namespace Client

/-! ## What is still to be read -/

/-- The bytes that are read before `WORK_OUT` is complete.  A request for a file under the name of a
directory never gets that far. -/
inductive Pending (c : Client) : Nat → Prop where
  | complete (hout : c.context.requestState.workOut = true) : Pending c 0
  | page (hout : c.context.requestState.workOut = false) (herror : c.hasError = true)
      (hpage : c.errorPage.Reads) : Pending c c.errorPage.rest.length
  | file {r : ARequest} (hout : c.context.requestState.workOut = false) (herror : c.hasError = false)
      (hrequest : c.request = some r) (hkind : r.kind = .get)
      (hformat : r.path.isFileFormat = true) (hinput : r.input.Reads) : Pending c r.input.rest.length
  | stuck {r : ARequest} (n : Nat) (hout : c.context.requestState.workOut = false)
      (herror : c.hasError = false) (hrequest : c.request = some r) (hkind : r.kind = .get)
      (hformat : r.path.isFileFormat = false) (hdirectory : r.directory = none) : Pending c n

/-- What is still to be read depends on four fields. -/
theorem Pending.congr {c c' : Client} {n : Nat} (h : c.Pending n)
    (hout : c'.context.requestState.workOut = c.context.requestState.workOut)
    (herror : c'.hasError = c.hasError) (hpage : c'.errorPage = c.errorPage)
    (hrequest : c'.request = c.request) : c'.Pending n := by
  cases h with
  | complete h₁ => exact .complete (hout.trans h₁)
  | page h₁ h₂ h₃ =>
    have hreads := Pending.page (hout.trans h₁) (herror.trans h₂) (hpage ▸ h₃)
    rw [hpage] at hreads
    exact hreads
  | file h₁ h₂ h₃ h₄ h₅ h₆ =>
    exact .file (hout.trans h₁) (herror.trans h₂) (hrequest.trans h₃) h₄ h₅ h₆
  | stuck n h₁ h₂ h₃ h₄ h₅ h₆ =>
    exact .stuck n (hout.trans h₁) (herror.trans h₂) (hrequest.trans h₃) h₄ h₅ h₆

theorem Pending.eq_zero {c : Client} {n : Nat} (h : c.Pending n)
    (hout : c.context.requestState.workOut = true) : n = 0 := by
  cases h with
  | complete => rfl
  | page hnot => exact absurd (hnot.symm.trans hout) Bool.false_ne_true
  | file hnot => exact absurd (hnot.symm.trans hout) Bool.false_ne_true
  | stuck n hnot => exact absurd (hnot.symm.trans hout) Bool.false_ne_true

/-- Reading the next part: what it puts in the stream comes off what is still to be read. -/
theorem Pending.produce {c : Client} {n : Nat} (h : c.Pending n) (sys : Sys) :
    ∃ data n', (c.produce sys).2.Pending n' ∧ (c.produce sys).2.output = c.output ++ data ∧
      n = data.length + n' := by
  cases h with
  | complete hout =>
    rw [produce_of_workOut hout sys]
    exact ⟨[], 0, .complete hout, (List.append_nil _).symm, rfl⟩
  | page hout herror hpage =>
    have hnot : ¬ c.context.requestState.isWorkOutComplete = true := Bool.eq_false_iff.mp hout
    unfold Client.produce
    rw [if_neg hnot, if_pos herror]
    obtain ⟨hreads, hrest, hend⟩ := hpage.read (n := reqBufferSize) (by decide)
    unfold readErrorPage
    dsimp only
    by_cases hnil : (c.errorPage.read reqBufferSize).1 = []
    · rw [if_pos hnil, hend hnil]
      exact ⟨[], 0, .complete rfl, (List.append_nil _).symm, rfl⟩
    · rw [if_neg hnil]
      refine ⟨(c.errorPage.read reqBufferSize).1, (c.errorPage.read reqBufferSize).2.rest.length,
        ?_, ?_, ?_⟩
      · exact Pending.page (c := { c with
          errorPage := (c.errorPage.read reqBufferSize).2
          context := c.context.appendResponse (c.errorPage.read reqBufferSize).1 }) hout herror hreads
      · exact (List.append_assoc ..).symm
      · rw [← List.length_append, ← hrest]
  | @file r hout herror hrequest hkind hformat hinput =>
    have hnot : ¬ c.context.requestState.isWorkOutComplete = true := Bool.eq_false_iff.mp hout
    have hcall : Handler.workOut sys ⟨c.context, r⟩ = Handler.readFile ⟨c.context, r⟩ := by
      rw [Handler.workOut, hkind]
      exact if_pos hformat
    unfold Client.produce
    rw [if_neg hnot, if_neg (Bool.eq_false_iff.mp herror), hrequest]
    dsimp only
    rw [hcall, Handler.readFile]
    obtain ⟨hreads, hrest, hend⟩ := hinput.read (n := reqBufferSize) (by decide)
    dsimp only
    by_cases hnil : (r.input.read reqBufferSize).1 = []
    · rw [if_pos hnil, hend hnil]
      exact ⟨[], 0, .complete rfl, (List.append_nil _).symm, rfl⟩
    · rw [if_neg hnil]
      refine ⟨(r.input.read reqBufferSize).1, (r.input.read reqBufferSize).2.rest.length, ?_, ?_, ?_⟩
      · exact Pending.file (c := c.withHandler {
          context := c.context.appendResponse (r.input.read reqBufferSize).1
          request := { r with input := (r.input.read reqBufferSize).2 } }) hout herror rfl hkind hformat
            hreads
      · exact (List.append_assoc ..).symm
      · rw [← List.length_append, ← hrest]
  | @stuck r n hout herror hrequest hkind hformat hdirectory =>
    have hnot : ¬ c.context.requestState.isWorkOutComplete = true := Bool.eq_false_iff.mp hout
    have hsame : (Handler.workOut sys ⟨c.context, r⟩).2 = ⟨c.context, r⟩ := by
      rw [Handler.workOut, hkind]
      dsimp only
      rw [Handler.workOutGET, if_neg (Bool.eq_false_iff.mp hformat), Handler.readDir, hdirectory]
      split_ifs <;> rfl
    unfold Client.produce
    rw [if_neg hnot, if_neg (Bool.eq_false_iff.mp herror), hrequest]
    dsimp only
    generalize Handler.workOut sys ⟨c.context, r⟩ = x at hsame
    obtain ⟨ret, h⟩ := x
    obtain rfl : h = ⟨c.context, r⟩ := hsame
    have hstuck : (c.withHandler ⟨c.context, r⟩).Pending n :=
      .stuck n hout herror rfl hkind hformat hdirectory
    cases ret <;> exact ⟨[], n, hstuck, (List.append_nil _).symm, (Nat.zero_add n).symm⟩

theorem Pending.handleSocketOut {c : Client} {n : Nat} (h : c.Pending n) (sys : Sys) :
    ∃ data n', (c.handleSocketOut sys).2.Pending n' ∧
      (c.handleSocketOut sys).2.output = c.output ++ data ∧ n = data.length + n' := by
  obtain ⟨data, n', hpending, houtput, hcount⟩ := h.produce sys
  unfold Client.handleSocketOut
  generalize c.produce sys = r at hpending houtput ⊢
  obtain ⟨ret, c₁⟩ := r
  cases ret with
  | reqContinue =>
    refine ⟨data, n', ?_, ?_, hcount⟩
    · rcases sendResponse_cases c₁ sys with heq | ⟨m, heq⟩ <;> dsimp only <;> rw [heq]
      · exact hpending
      · unfold Client.takeResponse
        split_ifs <;> exact hpending.congr rfl rfl rfl rfl
    · have hsent : (c₁.sendResponse sys).2.output = c₁.output := by
        rcases sendResponse_cases c₁ sys with heq | ⟨m, heq⟩ <;> rw [heq]
        have hextends := (extends_takeResponse c₁ sys m).output
        rw [List.append_nil] at hextends
        exact hextends
      exact hsent.trans houtput
  | reqDone | reqError | throws => exact ⟨data, n', hpending, houtput, hcount⟩

/-- `handleOut` answers `REQ_DONE` when nothing waits to be sent and nothing is still to be read. -/
theorem handleSocketOut_done {c : Client} {sys : Sys} (h : (c.handleSocketOut sys).1 = .reqDone) :
    (c.handleSocketOut sys).2.context.responseBuffer = [] ∧
      (c.handleSocketOut sys).2.context.requestState.workOut = true := by
  have hsend : ∀ c₁ : Client, (c₁.sendResponse sys).1 = .reqDone →
      (c₁.sendResponse sys).2.context.responseBuffer = [] ∧
        (c₁.sendResponse sys).2.context.requestState.workOut = true := by
    intro c₁ hdone
    unfold Client.sendResponse at hdone ⊢
    dsimp only at hdone ⊢
    split_ifs at hdone ⊢
    · cases hsys : sys.send with
      | error =>
        rw [hsys] at hdone
        cases hdone
      | accepted n =>
        rw [hsys] at hdone
        obtain ⟨hbuffer, hwork⟩ := (sendRet_eq_reqDone_iff _).mp hdone
        exact ⟨hbuffer, ((isWorkComplete_iff _).mp hwork).2⟩
    · obtain ⟨hbuffer, hwork⟩ := (sendRet_eq_reqDone_iff _).mp hdone
      exact ⟨hbuffer, ((isWorkComplete_iff _).mp hwork).2⟩
  rcases c.produce_cases sys with ⟨c₁, hproduce, -⟩ | ⟨fault, hthrows⟩
  · rw [Client.handleSocketOut, hproduce] at h ⊢
    exact hsend c₁ h
  · unfold Client.handleSocketOut at h
    generalize c.produce sys = r at hthrows h
    obtain ⟨ret, c₁⟩ := r
    cases hthrows
    cases h

/-! ## The length that is announced -/

/-- What follows the head, with what is still to be read, has the length that the head announces. -/
def Announces (c : Client) (r : Response) (body : Bytes) : Prop :=
  ∀ value, r.headers.find? headerContentLength = some value →
    ∃ n, c.Pending n ∧ value = numToStr ((body.length + n : Nat) : Int)

theorem Announces.congr {c c' : Client} {r : Response} {body : Bytes} (h : c.Announces r body)
    (hout : c'.context.requestState.workOut = c.context.requestState.workOut)
    (herror : c'.hasError = c.hasError) (hpage : c'.errorPage = c.errorPage)
    (hrequest : c'.request = c.request) : c'.Announces r body := by
  intro value hvalue
  obtain ⟨n, hpending, heq⟩ := h value hvalue
  exact ⟨n, hpending.congr hout herror hpage hrequest, heq⟩

/-- The response is not started, and can be: nothing is in the stream, and what the response announces is
what is there to be read. -/
structure Prepared (c : Client) : Prop where
  output : c.output = []
  heads : c.context.world.heads = []
  errorPage : c.errorPage = {}
  canWrite : c.context.requestState.canWrite = false
  body : c.hasError = true → c.context.response.body = []
  announces : c.hasError = false → c.Announces c.context.response c.context.response.body
  short : c.context.requestState.workOut = false → c.context.world.fs.Short
  uploads : ∀ r, c.request = some r → r.kind = .post ∨ r.kind = .put → c.context.response.Plain

/-- The response is started: without a head, or with one that announces what follows it. -/
structure Started (c : Client) : Prop where
  canWrite : c.context.requestState.canWrite = true
  stream : c.context.world.heads = [] ∨ ∃ r body, c.context.world.heads = [r] ∧
    c.output = Response.head r ++ body ∧ c.Announces r body

/-- A response that was sent has the length that its head announces. -/
def Framed (c : Client) : Prop :=
  ∀ r ∈ c.context.world.heads, ∀ value, r.headers.find? headerContentLength = some value →
    ∃ body, c.context.world.sent = Response.head r ++ body ∧ value = numToStr body.length

/-- The status gets a custom page that is announced, but not read because `WORK_OUT` is complete. -/
def skipsPage (c : Client) (sys : Sys) : Bool :=
  c.hasError && c.context.requestState.workOut && (c.openErrorPage sys).1 &&
    !(c.openErrorPage sys).2.errorPage.rest.isEmpty

/-! ## The start of a response -/

/-- The stream of the error page. -/
theorem openErrorPage_errorPage (c : Client) (sys : Sys) :
    (c.openErrorPage sys).2.errorPage =
      match c.customErrorPage sys with
      | none => c.errorPage
      | some path => c.errorPage.openAt sys c.context.world.fs path.str := by
  unfold openErrorPage
  cases c.customErrorPage sys with
  | none => rfl
  | some path =>
    dsimp only
    split_ifs <;> rfl

/-- The page that is opened has the length that is announced. -/
theorem openErrorPage_length {c : Client} {sys : Sys} (h : (c.openErrorPage sys).1 = true)
    (hfresh : c.errorPage = {}) :
    ∃ size : Int, c.loadErrorPage sys = c.withPage ⟨c.context.requestState,
        c.context.response.setHeader headerContentLength (numToStr (toInt32 size)),
        (c.openErrorPage sys).2.errorPage⟩ ∧
      (c.openErrorPage sys).2.errorPage.Reads ∧
        size = (c.openErrorPage sys).2.errorPage.rest.length ∧
          (c.context.world.fs.Short → (c.openErrorPage sys).2.errorPage.rest.length < 2 ^ 31) := by
  have hstat : ∀ q, c.customErrorPage sys = some q →
      ∃ p : Path, p.stat sys c.context.world.fs = some q ∧ q.isFile = true := by
    intro q hq
    unfold customErrorPage at hq
    cases hblock : c.context.serverBlock with
    | none =>
      rw [hblock] at hq
      cases hq
    | some block =>
      rw [hblock] at hq
      dsimp only at hq
      cases hfind : block.findErrorPage c.context.response.statusCode with
      | none =>
        rw [hfind] at hq
        cases hq
      | some p =>
        rw [hfind] at hq
        dsimp only at hq
        split_ifs at hq
        cases hp : p.stat sys c.context.world.fs with
        | none =>
          rw [hp] at hq
          cases hq
        | some path =>
          rw [hp] at hq
          dsimp only at hq
          split_ifs at hq with hfile
          cases hq
          exact ⟨p, hp, hfile.2⟩
  unfold loadErrorPage
  unfold openErrorPage at h ⊢
  cases hcustom : c.customErrorPage sys with
  | none =>
    rw [hcustom] at h
    cases h
  | some q =>
    obtain ⟨p, hp, hfile⟩ := hstat q hcustom
    rw [hcustom] at h
    dsimp only at h ⊢
    have hopen : (c.errorPage.openAt sys c.context.world.fs q.str).isOpen = true := by
      by_contra hnot
      rw [if_neg hnot] at h
      cases h
    obtain ⟨hreads, hsize, hshort⟩ :=
      IStream.openAt_of_stat hp hfile (by rw [hfresh]) hopen
    rw [if_pos hopen]
    exact ⟨q.size, rfl, hreads, hsize, hshort⟩

/-- The built-in page has the length that is announced, and completes all work. -/
theorem loadErrorPage_builtIn {c : Client} {sys : Sys} (h : (c.openErrorPage sys).1 = false) :
    ∃ errorPage, c.loadErrorPage sys = c.withPage ⟨c.context.requestState.setWorkComplete,
      (c.context.response.setBody (errorBody c.context.response.statusCode)).setHeader
        headerContentLength
        (numToStr (toInt32 (errorBody c.context.response.statusCode).length)), errorPage⟩ := by
  unfold loadErrorPage
  unfold openErrorPage at h ⊢
  cases hcustom : c.customErrorPage sys with
  | none => exact ⟨c.errorPage, rfl⟩
  | some q =>
    rw [hcustom] at h
    dsimp only at h ⊢
    split_ifs at h ⊢
    exact ⟨_, rfl⟩

/-- Without a head, or with one that announces what follows. -/
def Streamed (c : Client) : Prop :=
  c.context.world.heads = [] ∨ ∃ r body, c.context.world.heads = [r] ∧
    c.output = Response.head r ++ body ∧ c.Announces r body

/-- The head is rendered, if one is due.  What is announced is then what the body and the open stream amount
to. -/
theorem streamed_render {c : Client} (houtput : c.output = []) (hheads : c.context.world.heads = [])
    (hannounces : c.Announces c.context.response c.context.response.body) :
    Streamed (if c.context.requestState.isCgiInComplete then c.render else c) := by
  obtain ⟨hsent, -⟩ := List.append_eq_nil_iff.mp houtput
  split_ifs
  · refine Or.inr ⟨c.context.response, c.context.response.body, ?_, ?_,
      hannounces.congr rfl rfl rfl rfl⟩
    · show c.context.world.heads ++ [c.context.response] = _
      rw [hheads, List.nil_append]
    · show c.context.world.sent ++ c.context.response.response = _
      rw [hsent, List.nil_append, Response.response_eq]
  · exact Or.inl hheads

theorem Streamed.switchToWrite {c : Client} (h : Streamed c) (sys : Sys) :
    (settle (c.switchToWrite sys)).closed = true ∨ Started (settle (c.switchToWrite sys)) := by
  unfold Client.switchToWrite
  split_ifs
  · refine Or.inr ⟨rfl, ?_⟩
    rcases h with hnil | ⟨r, body, hheads, houtput, hannounces⟩
    · exact Or.inl hnil
    · exact Or.inr ⟨r, body, hheads, houtput, hannounces.congr rfl rfl rfl rfl⟩
  · exact Or.inl rfl

/-- A header that was set last. -/
theorem announces_setHeader {c : Client} {r : Response} {body : Bytes} {m n : Nat}
    (hpending : c.Pending n) (hlength : m = body.length + n) :
    c.Announces (r.setHeader headerContentLength (numToStr m)) body := by
  intro value hvalue
  rw [Response.setHeader_headers, OrderedMap.find?_insert_self] at hvalue
  exact ⟨n, hpending, by rw [← hlength]; exact (Option.some.inj hvalue).symm⟩

/-- **The start of a response**, unless it announces a page that is not read: what is announced is what
follows, or the client is dropped. -/
theorem Prepared.startResponse {c : Client} (h : Prepared c) {sys : Sys}
    (hskips : c.skipsPage sys = false) :
    (settle (c.startResponse sys)).closed = true ∨ Started (settle (c.startResponse sys)) := by
  unfold Client.startResponse prepareError
  dsimp only
  cases herror : c.hasError with
  | false =>
    rw [if_neg Bool.false_ne_true]
    exact (streamed_render h.output h.heads (h.announces herror)).switchToWrite sys
  | true =>
    rw [if_pos rfl]
    let c₁ := c.setResponse (c.context.response.setHeader headerContentType (bytes "text/html"))
    suffices hannounces : (c₁.loadErrorPage sys).Announces (c₁.loadErrorPage sys).context.response
        (c₁.loadErrorPage sys).context.response.body by
      obtain ⟨f, heq, -⟩ := loadErrorPage_cases c₁ sys
      refine (streamed_render ?_ ?_ hannounces).switchToWrite sys
      · show (c₁.loadErrorPage sys).output = []
        rw [heq]
        exact h.output
      · show (c₁.loadErrorPage sys).context.world.heads = []
        rw [heq]
        exact h.heads
    have hopen : (c₁.openErrorPage sys).1 = (c.openErrorPage sys).1 := by
      rw [openErrorPage_fst, openErrorPage_fst]
      rfl
    cases hpage : (c₁.openErrorPage sys).1 with
    | true =>
      have hsame : (c₁.openErrorPage sys).2.errorPage = (c.openErrorPage sys).2.errorPage := by
        rw [openErrorPage_errorPage, openErrorPage_errorPage]
        rfl
      obtain ⟨size, heq, hreads, rfl, hshort⟩ := openErrorPage_length hpage h.errorPage
      rw [heq]
      have hbody : c.context.response.body = [] := h.body herror
      cases hout : c.context.requestState.workOut with
      | true =>
        have hempty : (c₁.openErrorPage sys).2.errorPage.rest = [] := by
          rw [skipsPage, herror, hout, ← hopen, hpage, ← hsame, Bool.true_and, Bool.true_and,
            Bool.true_and, Bool.not_eq_false', List.isEmpty_iff] at hskips
          exact hskips
        rw [hempty]
        exact announces_setHeader (m := 0) (.complete hout) (congrArg List.length hbody).symm
      | false =>
        have hlength := hshort (h.short hout)
        have hexact : toInt32 ((c₁.openErrorPage sys).2.errorPage.rest.length : Int) =
            (c₁.openErrorPage sys).2.errorPage.rest.length := toInt32_of_range (by omega) (by
          have hmax : int32Max = 2 ^ 31 - 1 := rfl
          omega)
        rw [hexact]
        refine announces_setHeader (.page hout herror hreads) ?_
        show _ = c.context.response.body.length + _
        rw [hbody]
        exact (Nat.zero_add _).symm
    | false =>
      obtain ⟨errorPage, heq⟩ := loadErrorPage_builtIn hpage
      have hexact : toInt32 (errorBody c₁.context.response.statusCode).length =
          (errorBody c₁.context.response.statusCode).length := toInt32_length_errorBody herror
      rw [heq, hexact]
      exact announces_setHeader (.complete rfl) rfl

end Client

/-! ## What `processing` puts in the response -/

/-- The file that is selected was found by `stat`. -/
theorem stat_of_selectFile {sys : Sys} {fs : FileSystem} {indexes : List Bytes} {p q : Path}
    (h : selectFile sys fs indexes p = some q) :
    ∃ p' : Path, p'.stat sys fs = some q ∧ q.isFile = true := by
  have hstat : ∀ {p q : Path}, p.statReadable sys fs = some q → p.stat sys fs = some q := by
    intro p q hq
    unfold Path.statReadable at hq
    cases hp : p.stat sys fs with
    | none =>
      rw [hp] at hq
      cases hq
    | some r =>
      rw [hp] at hq
      dsimp only at hq
      split_ifs at hq
      exact hq
  unfold selectFile at h
  split_ifs at h
  cases hp : p.statReadable sys fs with
  | none =>
    rw [hp] at h
    cases h
  | some r =>
    rw [hp] at h
    dsimp only at h
    split_ifs at h with hfile
    · cases h
      exact ⟨p, hstat hp, hfile⟩
    · cases hindex : Handler.findIndex fs r indexes with
      | none =>
        rw [hindex] at h
        cases h
      | some test =>
        rw [hindex] at h
        dsimp only at h
        cases htest : (Path.ofString test).statReadable sys fs with
        | none =>
          rw [htest] at h
          cases h
        | some r' =>
          rw [htest] at h
          dsimp only at h
          split_ifs at h with hfile'
          cases h
          exact ⟨_, hstat htest, hfile'⟩

namespace Handler

theorem plain_processingDELETE (sys : Sys) {h : Handler} (hplain : h.context.response.Plain) :
    (processingDELETE sys h).context.response.Plain := by
  unfold processingDELETE
  dsimp only
  split_ifs
  · cases h.request.path.stat sys h.context.world.fs with
    | none => exact hplain.setStatusCode _
    | some path =>
      dsimp only
      split_ifs <;> exact hplain.setStatusCode _
  · exact hplain.setStatusCode _

theorem plain_openCGI (sys : Sys) {h : Handler} (hplain : h.context.response.Plain) :
    (openCGI sys h).context.response.Plain := by
  rcases openCGI_cases sys h with heq | ⟨pair, heq⟩ | ⟨pair, pid, heq⟩ <;> rw [heq]
  · exact hplain.setStatusCode _
  · exact hplain.setStatusCode _
  · exact hplain

/-- `processing` of PUT and POST answers with a status only. -/
theorem plain_processing_upload (sys : Sys) {h : Handler} (hplain : h.context.response.Plain)
    (hkind : h.request.kind = .post ∨ h.request.kind = .put) :
    (processing sys h).context.response.Plain := by
  have hchecked : ∀ {h₁ : Handler} (f : RequestState → RequestState),
      Checked h (.reqContinue, h₁) → (h₁.setState f).context.response.Plain := by
    intro h₁ f hchecked
    cases hchecked <;> exact hplain
  have hstarts := startsBody_processing sys hkind
  generalize processing sys h = h' at hstarts ⊢
  cases hstarts with
  | refused n hcode f => exact hplain.setStatusCode _
  | cgi _ _ hcontinue =>
    exact plain_openCGI sys (hchecked RequestState.setWorkInComplete hcontinue)
  | upload f _ hcontinue huploads =>
    have hplain₁ := hchecked f hcontinue
    cases huploads with
    | refused path hcode => exact hplain₁.setStatusCode _
    | unopened hnamed hcode => exact hplain₁.setStatusCode _
    | opened hnamed hcreate => exact hplain₁

/-- The constructors of PUT and POST complete the output, and `processing` leaves it so. -/
theorem workOut_processing_upload (sys : Sys) {h : Handler}
    (hout : h.context.requestState.workOut = true)
    (hkind : h.request.kind = .post ∨ h.request.kind = .put) :
    (processing sys h).context.requestState.workOut = true := by
  unfold processing
  rcases hkind with hpost | hput
  · rw [hpost]
    dsimp only
    rcases processes_processingPOST sys h with
      ⟨h₁, hquiet, -, heq⟩ | ⟨-, h₁, hquiet, heq⟩ | ⟨-, h₁, hquiet, hquiet'⟩
    · rw [heq]
      show h₁.context.requestState.workOut = true
      rw [hquiet.requestState]
      exact hout
    · rw [heq]
      have hset : h₁.context.requestState.workOut = true := by
        rw [hquiet.requestState]
        exact hout
      rcases (processes_openCGI sys (h₁.setState RequestState.setWorkInComplete)).2.1 with
        hstate | hstate <;> rw [hstate]
      · exact hset
      · rfl
    · rw [hquiet'.requestState]
      show h₁.context.requestState.workOut = true
      rw [hquiet.requestState]
      exact hout
  · rw [hput]
    exact (congrArg RequestState.workOut (quiet_processingPUT sys h).requestState).trans hout

/-- What GET puts in the response: no length, and no body either when it is an error; or the length of
the file it has opened. -/
def AnswersGET (h : Handler) : Prop :=
  h.context.response.headers.find? headerContentLength = none ∧
      (isErrorCode h.context.response.statusCode = true → h.context.response.body = []) ∨
    h.context.response.statusCode = statusOk ∧ h.context.response.body = [] ∧
      h.context.requestState.workOut = false ∧ h.request.directory = none ∧ h.request.input.Reads ∧
        h.context.response.headers.find? headerContentLength =
          some (numToStr h.request.input.rest.length)

theorem Plain.answersGET {h : Handler} (hplain : h.context.response.Plain) : h.AnswersGET :=
  Or.inl ⟨hplain.length, fun _ => hplain.body⟩

/-- A file is announced with its length. -/
theorem find?_setFileHeaders (h : Handler) :
    h.setFileHeaders.context.response.headers.find? headerContentLength =
      some (numToStr (toInt32 h.request.path.size)) :=
  OrderedMap.find?_insert_self _ _ _

/-- `processing` of GET, when it does not open a CGI. -/
theorem answersGET_processingGET (sys : Sys) {h : Handler} (hplain : h.context.response.Plain)
    (hout : h.context.requestState.workOut = false) (hinput : h.request.input = {})
    (hdirectory : h.request.directory = none) (hshort : h.context.world.fs.Short)
    (hcgi : (processingGET sys h).context.cgiSocket = -1) :
    (processingGET sys h).AnswersGET ∧
      (processingGET sys h).context.world.fs = h.context.world.fs := by
  have hp : Processed _ id (openDirGET sys) h _ (processingGET sys h) := processed_processFile _ _ _ sys h
  generalize processingGET sys h = h' at hp hcgi ⊢
  generalize hselected : selectFile sys h.context.world.fs h.rule.indexes h.request.path = selected at hp
  cases hp with
  | served q hq =>
    dsimp only [id] at hcgi ⊢
    cases hpath : (h.setPath q).request.cgiPath with
    | some cgi =>
      rw [hpath] at hcgi
      dsimp only at hcgi ⊢
      rcases openCGI_cases sys (h.setPath q) with heq | ⟨pair, heq⟩ | ⟨pair, pid, heq⟩
      · rw [heq]
        exact ⟨Plain.answersGET (hplain.setStatusCode _), rfl⟩
      · rw [heq] at hcgi
        have hnumber : ((pair.1 : Nat) : Int) = -1 := hcgi
        omega
      · rw [heq] at hcgi
        have hnumber : ((pair.1 : Nat) : Int) = -1 := hcgi
        omega
    | none =>
      obtain ⟨p, hstat, hfile⟩ := stat_of_selectFile hselected
      dsimp only
      unfold openFileGET
      have hopens : (h.setPath q).request.input = {} := hinput
      rw [hopens]
      dsimp only
      by_cases hopen : (({} : IStream).openAt sys (h.setPath q).context.world.fs
          (h.setPath q).request.path.str).isOpen = true
      · rw [if_pos hopen]
        obtain ⟨hreads, hsize, hlt⟩ := IStream.openAt_of_stat hstat hfile rfl hopen
        have hlength := hlt hshort
        have hexact : toInt32 q.size = (({} : IStream).openAt sys h.context.world.fs q.str).rest.length := by
          have hmax : int32Max = 2 ^ 31 - 1 := rfl
          rw [hsize]
          exact toInt32_of_range (by omega) (by omega)
        refine ⟨Or.inr ⟨rfl, hplain.body, hout, hdirectory, hreads, ?_⟩, rfl⟩
        exact (find?_setFileHeaders _).trans (congrArg (fun n => some (numToStr n)) hexact)
      · rw [if_neg hopen]
        exact ⟨Plain.answersGET (hplain.setStatusCode _), rfl⟩
  | refused p hp code => exact ⟨Plain.answersGET (hplain.setStatusCode _), rfl⟩
  | finished p hp code => exact ⟨Plain.answersGET (hplain.setStatusCode _), rfl⟩
  | redirected p hp location =>
    exact ⟨Plain.answersGET ((hplain.setStatusCode _).setHeader (by decide) _), rfl⟩
  | listed p hp =>
    unfold openDirGET
    dsimp only
    split_ifs
    · refine ⟨Or.inl ⟨?_, fun herror => ?_⟩, rfl⟩
      · exact ((hplain.setStatusCode statusOk).setHeader
          (show headerContentLength ≠ headerContentType by decide) (bytes "text/html")).length
      · cases herror
    · exact ⟨Plain.answersGET (hplain.setStatusCode _), rfl⟩

end Handler

namespace Client

/-! ## The end of the head -/

/-- A response without a body of its own. -/
theorem prepared_of_plain {c : Client} (houtput : c.output = []) (hheads : c.context.world.heads = [])
    (hpage : c.errorPage = {}) (hcanWrite : c.context.requestState.canWrite = false)
    (hplain : c.context.response.Plain)
    (hshort : c.context.requestState.workOut = false → c.context.world.fs.Short) : Prepared c where
  output := houtput
  heads := hheads
  errorPage := hpage
  canWrite := hcanWrite
  body := fun _ => hplain.body
  announces := fun _ value hvalue => by
    rw [hplain.length] at hvalue
    cases hvalue
  short := hshort
  uploads := fun _ _ _ => hplain

/-- A response for which GET may have opened a file. -/
theorem prepared_of_answersGET {c : Client} {h : Handler} (houtput : (c.withHandler h).output = [])
    (hheads : (c.withHandler h).context.world.heads = []) (hpage : (c.withHandler h).errorPage = {})
    (hcanWrite : (c.withHandler h).context.requestState.canWrite = false) (hanswers : h.AnswersGET)
    (hget : h.request.kind = .get) (hshort : h.context.world.fs.Short) : Prepared (c.withHandler h) where
  output := houtput
  heads := hheads
  errorPage := hpage
  canWrite := hcanWrite
  body := fun herror => by
    rcases hanswers with ⟨-, hbody⟩ | ⟨-, hbody, -⟩
    · exact hbody herror
    · exact hbody
  announces := fun herror value hvalue => by
    rcases hanswers with ⟨hnone, -⟩ | ⟨-, hbody, hout, hdirectory, hreads, hlength⟩
    · rw [show (c.withHandler h).context.response.headers.find? headerContentLength = none from
        hnone] at hvalue
      cases hvalue
    · have heq := Option.some.inj (hlength.symm.trans hvalue)
      show ∃ n, _ ∧ _ = numToStr ((h.context.response.body.length + n : Nat) : Int)
      rw [hbody, ← heq]
      refine ⟨h.request.input.rest.length, ?_, by rw [List.length_nil, Nat.zero_add]⟩
      cases hformat : h.request.path.isFileFormat with
      | true => exact .file (c := c.withHandler h) hout herror rfl hget hformat hreads
      | false => exact .stuck _ hout herror rfl hget hformat hdirectory
  short := fun _ => hshort
  uploads := fun r hr hkind => by
    obtain rfl : h.request = r := Option.some.inj hr
    rw [hget] at hkind
    rcases hkind with hpost | hput
    · cases hpost
    · cases hput

/-- The request object has put what it announces in the response, unless it is of `RequestHEAD` or has
opened a CGI. -/
theorem HeadAccepted.prepared_creates {c : Client} (h : HeadAccepted c)
    (hplain : c.context.response.Plain) (hshort : c.context.world.fs.Short) {kind : RequestKind}
    {h₀ : Handler} (hkind : requestKind c.context.method = some kind)
    (hcreate : createRequest kind c.context = .ok h₀) {sys : Sys}
    (hmethod : (h₀.processing sys).context.method ≠ .head)
    (hcgi : (h₀.processing sys).context.cgiSocket = -1) :
    Prepared (c.withHandler (h₀.processing sys)) := by
  have hcanWrite : c.context.requestState.canWrite = false := by rw [h.requestState]
  have hstarted := Handler.started_processing sys hcreate
  obtain ⟨h₁, hctx, f, hf⟩ := hstarted.fields
  have hsame : (h₀.processing sys).context.method = c.context.method := by
    rw [← hctx, hf]
    rfl
  have hstream : SameStream c (c.withHandler (h₀.processing sys)) := by
    constructor <;>
      rw [← hctx, show (c.withHandler (h₀.processing sys)).context =
        (h₀.processing sys).context from rfl, hf] <;> rfl
  have houtput := hstream.output.trans h.output
  have hheads := hstream.heads.trans h.heads
  have hnot : (c.withHandler (h₀.processing sys)).context.requestState.canWrite = false :=
    hstarted.flags.canWrite.trans hcanWrite
  obtain ⟨chopedTarget, -, hh⟩ := createRequest_ok hcreate
  have hplain₀ : h₀.context.response.Plain := by
    rw [hh]
    exact hplain
  have huploads : (h₀.processing sys).context.requestState.workOut = true →
      (h₀.processing sys).context.response.Plain →
        Prepared (c.withHandler (h₀.processing sys)) := by
    intro hout hplain
    refine prepared_of_plain houtput hheads h.errorPage hnot hplain fun hclear => ?_
    exact absurd (hclear.symm.trans hout) Bool.false_ne_true
  cases kind with
  | head =>
    refine absurd ?_ hmethod
    show (h₀.processing sys).context.method = .head
    rw [hsame]
    revert hkind
    cases c.context.method <;> rintro ⟨⟩
    rfl
  | delete =>
    have hcall : h₀.processing sys = h₀.processingDELETE sys := by
      unfold Handler.processing
      rw [hh]
    rw [hcall] at huploads ⊢
    refine huploads ?_ (Handler.plain_processingDELETE sys hplain₀)
    rw [(Handler.quiet_processingDELETE sys h₀).requestState, hh]
    rfl
  | post =>
    have hpost : h₀.request.kind = .post ∨ h₀.request.kind = .put := Or.inl (by rw [hh])
    refine huploads (Handler.workOut_processing_upload sys ?_ hpost)
      (Handler.plain_processing_upload sys hplain₀ hpost)
    rw [hh]
    rfl
  | put =>
    have hput : h₀.request.kind = .post ∨ h₀.request.kind = .put := Or.inr (by rw [hh])
    refine huploads (Handler.workOut_processing_upload sys ?_ hput)
      (Handler.plain_processing_upload sys hplain₀ hput)
    rw [hh]
    rfl
  | get =>
    have hcall : h₀.processing sys = h₀.processingGET sys := by
      unfold Handler.processing
      rw [hh]
    have hclear : h₀.context.requestState.workOut = false := by
      rw [hh]
      show c.context.requestState.workOut = false
      rw [h.requestState]
    have hget : (h₀.processing sys).request.kind = .get := hstarted.kind_eq
    rw [hcall] at hcgi hget houtput hheads hnot ⊢
    obtain ⟨hanswers, hfs⟩ := Handler.answersGET_processingGET sys hplain₀ hclear (by rw [hh])
      (by rw [hh]) (by rw [hh]; exact hshort) hcgi
    refine prepared_of_answersGET houtput hheads h.errorPage hnot hanswers hget ?_
    rw [hfs, hh]
    exact hshort

theorem HeadAccepted.prepared_resolves {c : Client} (h : HeadAccepted c)
    (hplain : c.context.response.Plain) (hshort : c.context.world.fs.Short) {sys : Sys} {r : Ret × Client}
    (hresolves : Resolves c sys r) (hmethod : r.2.context.method ≠ .head)
    (hcgi : r.2.context.cgiSocket = -1) : Prepared r.2 := by
  have hcanWrite : c.context.requestState.canWrite = false := by rw [h.requestState]
  cases hresolves with
  | noServer | noTarget =>
    exact prepared_of_plain h.output h.heads h.errorPage hcanWrite hplain fun _ => hshort
  | answers hcode =>
    exact prepared_of_plain h.output h.heads h.errorPage hcanWrite (hplain.setStatusCode _)
      fun _ => hshort
  | redirects redirection =>
    exact prepared_of_plain h.output h.heads h.errorPage hcanWrite
      ((hplain.setStatusCode _).setHeader (by decide) _) fun _ => hshort
  | @creates block loc kind h₀ hfinds hkind hcreate =>
    have haccepted : HeadAccepted (c.withBlocks block (some loc)) := { h with }
    exact haccepted.prepared_creates hplain hshort hkind hcreate hmethod hcgi

theorem AwaitsHead.prepared_parseRequest {c : Client} (h : AwaitsHead c)
    (hshort : c.context.world.fs.Short) {sys : Sys} (hdone : (c.parseRequest sys).1 = .reqDone)
    (hmethod : (c.parseRequest sys).2.context.method ≠ .head)
    (hcgi : (c.parseRequest sys).2.context.cgiSocket = -1) : Prepared (c.parseRequest sys).2 := by
  have hplain : c.context.response.Plain := by
    rw [h.response]
    exact Response.plain_init
  have hends := h.headEnds sys
  generalize c.parseRequest sys = r at hends hdone hmethod hcgi ⊢
  cases hends with
  | waits => cases hdone
  | refused f hcode =>
    exact prepared_of_plain h.output h.heads h.errorPage rfl (hplain.setStatusCode _) fun _ => hshort
  | resolved f hhead hresolves hret =>
    exact (h.headAccepted f).prepared_resolves hplain hshort hresolves hmethod hcgi
  | answered f hhead hresolves =>
    have hprepared := (h.headAccepted f).prepared_resolves hplain hshort hresolves hmethod hcgi
    exact { hprepared with
      announces := fun herror => (hprepared.announces herror).congr rfl rfl rfl rfl }

/-! ## Steps -/

/-- The body of an upload is read, or the refusal of it waits for one more event. -/
structure Uploading (c : Client) : Prop extends Prepared c where
  clientRead : c.context.requestState.isClientReadComplete = true
  workOut : c.context.requestState.workOut = true

/-- What holds between two events, for a method other than HEAD and without a CGI. -/
def Frames (c : Client) : Prop :=
  c.closed = true ∨ AwaitsHead c ∧ c.context.world.fs.Short ∨ Uploading c ∨ Started c

/-- A body reader touches nothing of the response but its status. -/
theorem Prepared.readBody {c : Client} (h : Prepared c) {r : ARequest} (hr : c.request = some r)
    (hkind : r.kind = .put ∨ r.kind = .post) (hout : c.context.requestState.workOut = true)
    (sys : Sys) :
    let c' := (c.touch .clientBody sys.now).withHandler (Handler.readBody sys ⟨c.context, r⟩).2
    Prepared c' ∧ c'.context.requestState.workOut = true := by
  intro c'
  obtain ⟨⟨f, hf⟩, hstate, -⟩ := Handler.reads_readBody sys ⟨c.context, r⟩
  have hcontext : c'.context = (Handler.readBody sys ⟨c.context, r⟩).2.context := rfl
  have hstream : SameStream c c' := by
    constructor <;> rw [hcontext, hf] <;> rfl
  have hflags : c'.context.requestState.workOut = c.context.requestState.workOut ∧
      c'.context.requestState.canWrite = c.context.requestState.canWrite := by
    rw [hcontext]
    rcases hstate with hstate | hstate <;> rw [hstate] <;> exact ⟨rfl, rfl⟩
  have hplain : c'.context.response.Plain := by
    rw [hcontext, hf]
    have hplain := h.uploads r hr hkind.symm
    exact ⟨hplain.body, hplain.length⟩
  refine ⟨prepared_of_plain (hstream.output.trans h.output) (hstream.heads.trans h.heads) h.errorPage
    (hflags.2.trans h.canWrite) hplain fun hclear => ?_, hflags.1.trans hout⟩
  exact absurd (hclear.symm.trans (hflags.1.trans hout)) Bool.false_ne_true

/-- More of a body is read. -/
theorem Uploading.handleRequest {c : Client} (h : Uploading c) (hawaits : AwaitsBody c) {sys : Sys}
    (hskips : ∀ c', c.worked sys = some c' → c'.skipsPage sys = false) :
    Frames (settle (c.handleRequest sys)) := by
  obtain ⟨r, hr, hkind, heq⟩ := hawaits.handleRequest_eq sys
  replace hkind := hkind.imp_right And.left
  obtain ⟨hprepared, hout⟩ := h.toPrepared.readBody hr hkind h.workOut sys
  have hread : RequestState.isClientReadComplete
      (Handler.readBody sys ⟨c.context, r⟩).2.context.requestState = true :=
    isClientReadComplete_of_le (Handler.reads_readBody sys ⟨c.context, r⟩).le h.clientRead
  rw [worked, hawaits.bodyHandler_eq hr] at hskips
  dsimp only at hskips
  rw [Handler.workIn_eq_readBody sys hkind] at hskips
  rw [heq]
  generalize Handler.readBody sys ⟨c.context, r⟩ = x at hprepared hout hread hskips ⊢
  obtain ⟨ret, h'⟩ := x
  cases ret with
  | reqDone =>
    rcases hprepared.startResponse (hskips _ rfl) with hclosed | hstarted
    · exact Or.inl hclosed
    · exact Or.inr (Or.inr (Or.inr hstarted))
  | reqContinue =>
    refine Or.inr (Or.inr (Or.inl ?_))
    exact { hprepared with
      announces := fun herror => (hprepared.announces herror).congr rfl rfl rfl rfl
      clientRead := hread
      workOut := hout }
  | reqError | throws => exact Or.inl rfl

/-- No byte comes for a response that is started, no time is over, and nobody else touches a file. -/
def Undisturbed (c : Client) : Event → Prop
  | .clientIn sys => c.context.requestState.canWrite = true → ∀ packet, sys.recv ≠ .data packet
  | .timeoutCheck sys => c.headerTimeout sys.now = false ∧ c.bodyTimeout sys.now = false ∧
      c.sendTimeout sys.now = false
  | .environment _ => False
  | .clientOut _ | .cgiIn _ | .cgiOut _ => True

/-- A read of the socket announces no page that is not read, and does not start the response to a
refused head again. -/
def ReadsPages (c : Client) : Event → Prop
  | .clientIn sys => (c.answered (.clientIn sys)).any (skipsPage · sys) = false ∧
      ¬ (c.context.requestState.canWrite = true ∧ c.context.requestState.isReadComplete = true)
  | _ => True

/-- Without a timeout `timeoutCheck` does nothing. -/
theorem step_timeoutCheck_of_not {c : Client} (hopen : c.closed = false) {sys : Sys}
    (h : c.Undisturbed (.timeoutCheck sys)) : c.step (.timeoutCheck sys) = c := by
  obtain ⟨hheader, hbody, hsend⟩ := h
  unfold Client.step
  rw [if_neg (by rw [hopen]; exact Bool.false_ne_true)]
  dsimp only
  unfold Client.timeoutCheck
  rw [hheader, hbody, hsend, if_neg Bool.false_ne_true, if_neg Bool.false_ne_true,
    if_neg Bool.false_ne_true, settle_continue hopen]

/-- `handleOut` does not stop the response. -/
theorem canWrite_handleSocketOut (c : Client) (sys : Sys) :
    (c.handleSocketOut sys).2.context.requestState.canWrite = c.context.requestState.canWrite := by
  have hproduce : (c.produce sys).2.context.requestState.canWrite =
      c.context.requestState.canWrite := by
    unfold Client.produce
    split_ifs
    · rfl
    · unfold readErrorPage
      dsimp only
      split_ifs <;> rfl
    · cases c.request with
      | none => rfl
      | some request =>
        obtain ⟨f, hf⟩ := (Handler.produces_workOut sys ⟨c.context, request⟩).fields
        dsimp only
        generalize Handler.workOut sys ⟨c.context, request⟩ = r at hf ⊢
        obtain ⟨ret, h⟩ := r
        obtain rfl : h = _ := hf
        cases ret <;> rfl
  unfold Client.handleSocketOut
  generalize c.produce sys = r at hproduce ⊢
  obtain ⟨ret, c₁⟩ := r
  cases ret with
  | reqContinue =>
    rw [← hproduce]
    rcases sendResponse_cases c₁ sys with heq | ⟨n, heq⟩ <;> dsimp only <;> rw [heq]
    unfold Client.takeResponse
    split_ifs <;> rfl
  | reqDone | reqError | throws => exact hproduce

/-- Part of the response is read and sent, and its length stays the one that is announced. -/
theorem Started.handleSocketOut {c : Client} (h : Started c) (hresponds : Responds c) (sys : Sys) :
    Started (c.handleSocketOut sys).2 := by
  obtain ⟨data, hextends, -⟩ :=
    (hresponds.handleSocketOut sys).2.resolve_right fun hreplaces => hreplaces.2
  refine ⟨(canWrite_handleSocketOut c sys).trans h.canWrite, ?_⟩
  · rw [hextends.heads, hextends.output]
    rcases h.stream with hnil | ⟨r, body, hheads, houtput, hannounces⟩
    · exact Or.inl hnil
    · refine Or.inr ⟨r, body ++ data, hheads, by rw [houtput, List.append_assoc], ?_⟩
      intro value hvalue
      obtain ⟨n, hpending, heq⟩ := hannounces value hvalue
      obtain ⟨data', n', hpending', houtput', hcount⟩ := hpending.handleSocketOut sys
      obtain rfl : data = data' :=
        List.append_cancel_left (hextends.output.symm.trans houtput')
      refine ⟨n', hpending', ?_⟩
      rw [heq, hcount, List.length_append, Nat.add_assoc]

/-- A client that writes responds. -/
theorem Started.responds {c : Client} (h : Started c) (hphase : Phase c) (hopen : c.closed = false) :
    Responds c := by
  rcases hphase with hclosed | hawaits | hbody | hresponds
  · rw [hopen] at hclosed
    cases hclosed
  · obtain ⟨requestLine, hstate⟩ := hawaits.requestState
    have hcanWrite := h.canWrite
    rw [hstate] at hcanWrite
    cases hcanWrite
  · exact absurd (hbody.canWrite.symm.trans h.canWrite) Bool.false_ne_true
  · exact hresponds

theorem Started.settle {r : Ret × Client} (h : Started r.2) : Started (settle r) where
  canWrite := h.canWrite
  stream := by
    rcases h.stream with hnil | ⟨response, body, hheads, houtput, hannounces⟩
    · exact Or.inl hnil
    · exact Or.inr ⟨response, body, hheads, houtput, hannounces.congr rfl rfl rfl rfl⟩

theorem Uploading.settle {r : Ret × Client} (h : Uploading r.2) : Uploading (settle r) :=
  { h with announces := fun herror => (h.announces herror).congr rfl rfl rfl rfl }

theorem Uploading.withRead {c : Client} (h : Uploading c) (buffer : Bytes) (timestamp : Timeout → Int) :
    Uploading (c.withRead buffer timestamp) :=
  { h with announces := fun herror => (h.announces herror).congr rfl rfl rfl rfl }

/-- Nothing waits to be sent before the response is started. -/
theorem Uploading.handleSocketOut {c : Client} (h : Uploading c) (sys : Sys) :
    c.handleSocketOut sys = (c.sendRet, c) := by
  unfold Client.handleSocketOut
  rw [produce_of_workOut h.workOut]
  unfold Client.sendResponse
  dsimp only
  rw [responseBuffer_of_output h.output, if_neg (by simp)]

/-- The response is started, or the client is dropped.  In the first case what is sent has the length that
the head announces. -/
theorem Prepared.frames {c : Client} (h : Prepared c) {sys : Sys} (hskips : c.skipsPage sys = false) :
    Frames (settle (c.startResponse sys)) := by
  rcases h.startResponse hskips with hclosed | hstarted
  · exact Or.inl hclosed
  · exact Or.inr (Or.inr (Or.inr hstarted))

/-- The file system stays as long as the head is not complete. -/
theorem AwaitsHead.fs_parseRequest {c : Client} (h : AwaitsHead c) {sys : Sys}
    (hwaits : (c.parseRequest sys).1 = .reqContinue) :
    (c.parseRequest sys).2.context.world.fs = c.context.world.fs := by
  have hends := h.headEnds sys
  generalize c.parseRequest sys = r at hends hwaits ⊢
  cases hends with
  | waits f requestLine hhead => rfl
  | resolved f hhead hresolves hret => exact absurd hwaits hret
  | refused | answered => cases hwaits

/-- The head of a request is read.  The step may end with a response that is under way, whose length is
right. -/
theorem AwaitsHead.frames_clientIn {c : Client} (h : AwaitsHead c) (hshort : c.context.world.fs.Short)
    {sys : Sys} (hskips : ∀ c', c.answered (.clientIn sys) = some c' → c'.skipsPage sys = false)
    (hkept : HeadDone (Client.settle (c.handleSocketIn sys)) →
      (c.handleSocketIn sys).2.context.method ≠ .head ∧
        (c.handleSocketIn sys).2.context.cgiSocket = -1) :
    Frames (Client.settle (c.handleSocketIn sys)) := by
  rcases handleSocketIn_cases c sys with
    ⟨-, -, hret, -⟩ | ⟨-, buffer, timestamp, hreceived, heq, htime⟩
  · exact Or.inl (decide_eq_true hret)
  · have hunread : c.context.requestState.isClientReadComplete = false :=
      Bool.eq_false_iff.mpr h.not_clientRead
    have hread : AwaitsHead (c.withRead buffer timestamp) :=
      { h with timestamp := by rw [Client.withRead, htime hunread]; exact h.timestamp }
    rw [answered, hreceived, Option.bind_some, parsed, if_neg hread.not_clientRead] at hskips
    rw [heq, Client.handleRead, if_neg hread.not_clientRead] at hkept ⊢
    have hprepared := @AwaitsHead.prepared_parseRequest _ hread hshort sys
    have hfs := @AwaitsHead.fs_parseRequest _ hread sys
    obtain ⟨-, -, hwaits, hgoesOn⟩ := hread.parseRequest sys
    generalize (c.withRead buffer timestamp).parseRequest sys = r
      at hkept hprepared hskips hfs hwaits hgoesOn ⊢
    obtain ⟨ret, c₁⟩ := r
    cases ret with
    | reqDone =>
      dsimp only at hkept hskips ⊢
      rw [Option.bind_some] at hskips
      have hclientRead : c₁.context.requestState.isClientReadComplete = true :=
        (hgoesOn rfl).elim (·.clientRead) (·.clientRead)
      obtain ⟨hmethod, hcgi⟩ := hkept (Or.inr ((retains_handleRequest c₁ sys).clientRead hclientRead))
      rcases hgoesOn rfl with hready | hbody
      · have hhandler : c₁.bodyHandler = none := bodyHandler_of_workIn hready.workIn
        rw [worked, hhandler] at hskips
        rw [handleRequest_of_workIn sys hready.workIn] at hmethod hcgi ⊢
        have hidles := idles_startResponse c₁ sys
        rw [hidles.method] at hmethod
        rw [hidles.cgiSocket] at hcgi
        exact (hprepared rfl hmethod hcgi).frames (hskips c₁ rfl)
      · rw [hbody.method_handleRequest sys] at hmethod
        have huploading : Uploading c₁ := {
          toPrepared := hprepared rfl hmethod hbody.cgiSocket
          clientRead := hbody.clientRead
          workOut := hbody.workOut }
        exact huploading.handleRequest hbody hskips
    | reqContinue =>
      refine Or.inr (Or.inl ⟨{ hwaits rfl with }, ?_⟩)
      show c₁.context.world.fs.Short
      rw [hfs rfl]
      exact hshort
    | reqError | throws => exact Or.inl rfl

/-- More is read for a client whose response is not started. -/
theorem Uploading.frames_clientIn {c : Client} (h : Uploading c) (hphase : AwaitsBody c ∨ Responds c)
    {sys : Sys} (hskips : ∀ c', c.answered (.clientIn sys) = some c' → c'.skipsPage sys = false) :
    Frames (Client.settle (c.handleSocketIn sys)) := by
  rcases handleSocketIn_cases c sys with
    ⟨-, -, hret, -⟩ | ⟨-, buffer, timestamp, hreceived, heq, -⟩
  · exact Or.inl (decide_eq_true hret)
  · have hread := h.withRead buffer timestamp
    have hparsed : (c.withRead buffer timestamp).parsed sys = some (c.withRead buffer timestamp) :=
      if_pos h.clientRead
    rw [answered, hreceived, Option.bind_some, hparsed, Option.bind_some] at hskips
    rw [heq, Client.handleRead, if_pos hread.clientRead]
    rcases hphase with hbody | hresponds
    · exact hread.handleRequest { hbody with } hskips
    · have hworkIn : (c.withRead buffer timestamp).context.requestState.workIn = true :=
        hresponds.workIn
      rw [worked, bodyHandler_of_workIn hworkIn] at hskips
      rw [handleRequest_of_workIn sys hworkIn]
      exact hread.toPrepared.frames (hskips _ rfl)

/-- **One step** keeps the length of the response to the length that is announced, if it does not disturb
the response and reads the pages it announces. -/
theorem Frames.step {c : Client} (h : Frames c) (hphase : Phase c) {e : Event}
    (hundisturbed : c.Undisturbed e) (hpages : c.ReadsPages e)
    (hkept : HeadDone (c.step e) →
      (c.step e).context.method ≠ .head ∧ (c.step e).context.cgiSocket = -1) : Frames (c.step e) := by
  by_cases hclosed : c.closed = true
  · have hstep : c.step e = c := if_pos hclosed
    rw [hstep]
    exact h
  have hopen : c.closed = false := Bool.eq_false_iff.mpr hclosed
  have hsocket : c.context.cgiSocket = -1 := by
    by_cases hdone : HeadDone c
    · exact (keeps_of_headDone hphase hdone e).2.symm.trans (hkept (hdone.step e)).2
    · exact (hphase.awaitsHead hdone).cgiSocket
  cases e with
  | timeoutCheck sys =>
    rw [step_timeoutCheck_of_not hopen hundisturbed]
    exact h
  | environment fs => exact hundisturbed.elim
  | cgiIn sys =>
    unfold Client.step
    rw [if_neg hclosed]
    dsimp only
    rw [if_pos hsocket]
    exact h
  | cgiOut sys =>
    unfold Client.step
    rw [if_neg hclosed]
    dsimp only
    rw [if_pos hsocket]
    exact h
  | clientIn sys =>
    have hskips : ∀ c', c.answered (.clientIn sys) = some c' → c'.skipsPage sys = false := by
      intro c' hc'
      have hskips := hpages.1
      rw [hc'] at hskips
      exact hskips
    unfold Client.step at hkept ⊢
    rw [if_neg hclosed] at hkept ⊢
    dsimp only at hkept ⊢
    rcases h with hc | ⟨hawaits, hshort⟩ | huploading | hstarted
    · exact absurd hc hclosed
    · exact hawaits.frames_clientIn hshort hskips hkept
    · rcases hphase with hc | hawaits | hphase
      · exact absurd hc hclosed
      · exact absurd huploading.clientRead hawaits.not_clientRead
      · exact huploading.frames_clientIn hphase hskips
    · rcases handleSocketIn_cases c sys with ⟨-, -, hret, -⟩ | ⟨hread, -⟩
      · exact Or.inl (decide_eq_true hret)
      · rcases hread with hread | ⟨packet, hdata⟩
        · exact absurd ⟨hstarted.canWrite, hread⟩ hpages.2
        · exact absurd hdata (hundisturbed hstarted.canWrite packet)
  | clientOut sys =>
    unfold Client.step
    rw [if_neg hclosed]
    dsimp only
    rcases h with hc | ⟨hawaits, hshort⟩ | huploading | hstarted
    · exact absurd hc hclosed
    · rw [hawaits.handleSocketOut sys, settle_continue hopen]
      exact Or.inr (Or.inl ⟨hawaits, hshort⟩)
    · refine Or.inr (Or.inr (Or.inl (Uploading.settle ?_)))
      rw [huploading.handleSocketOut sys]
      exact huploading
    · exact Or.inr (Or.inr (Or.inr (hstarted.handleSocketOut (hstarted.responds hphase hopen) sys).settle))

theorem frames_run {es : List Event} : ∀ {c : Client}, Phase c → Frames c →
    Transition.Along step Undisturbed c es → Transition.Along step ReadsPages c es →
      (c.run es).context.method ≠ .head → (c.run es).context.cgiSocket = -1 → Frames (c.run es) := by
  induction es with
  | nil => exact fun _ hframes _ _ _ _ => hframes
  | cons e es ih =>
    intro c hphase hframes hundisturbed hpages hmethod hcgi
    have hphase' := (phase_step hphase e).1
    refine ih hphase' (hframes.step hphase hundisturbed.1 hpages.1 fun hdone => ?_) hundisturbed.2
      hpages.2 hmethod hcgi
    -- the method and the socket are those at the end
    obtain ⟨hmethod', hcgi'⟩ := keeps_run hphase' hdone es
    exact ⟨hmethod' ▸ hmethod, hcgi'.symm.trans hcgi⟩

/-! ## Whole runs -/

/-- Everything is read and sent.  What was to come is nothing now, so that the bytes behind the head are as
many as announced. -/
theorem Started.framed {c : Client} (h : Started c) (hbuffer : c.context.responseBuffer = [])
    (hout : c.context.requestState.workOut = true) : Framed c := by
  intro response hresponse value hvalue
  rcases h.stream with hnil | ⟨r, body, hheads, houtput, hannounces⟩
  · rw [hnil] at hresponse
    cases hresponse
  · rw [hheads, List.mem_singleton] at hresponse
    subst hresponse
    obtain ⟨n, hpending, heq⟩ := hannounces value hvalue
    rw [Client.output, hbuffer, List.append_nil] at houtput
    rw [hpending.eq_zero hout, Nat.add_zero] at heq
    exact ⟨body, houtput, heq⟩

/-- **A response has the length that it announces**, when it is sent whole, in every run that announces
no page that is not read. -/
theorem framed_run (server : Server) (fs : FileSystem) (connectSocket fd : Fd) (now : Int)
    (es : List Event) (sys : Sys) (hshort : fs.Short)
    (hundisturbed : Transition.Along step Undisturbed (init server fs connectSocket fd now) es)
    (hpages : Transition.Along step ReadsPages (init server fs connectSocket fd now) es)
    (hmethod : ((init server fs connectSocket fd now).run es).context.method ≠ .head)
    (hcgi : ((init server fs connectSocket fd now).run es).context.cgiSocket = -1)
    (hopen : ((init server fs connectSocket fd now).run es).closed = false)
    (hdone : (((init server fs connectSocket fd now).run es).handleSocketOut sys).1 = .reqDone) :
    Framed (((init server fs connectSocket fd now).run es).handleSocketOut sys).2 := by
  have hawaits := awaitsHead_init server fs connectSocket fd now
  have hinit : Phase (init server fs connectSocket fd now) := Or.inr (Or.inl hawaits)
  have hphase := phase_run hinit es
  have hframes := frames_run hinit (Or.inr (Or.inl ⟨hawaits, hshort⟩)) hundisturbed hpages hmethod hcgi
  generalize (init server fs connectSocket fd now).run es = c at hopen hdone hphase hframes ⊢
  rcases hframes with hclosed | ⟨hawaits, -⟩ | huploading | hstarted
  · rw [hopen] at hclosed
    cases hclosed
  · rw [hawaits.handleSocketOut sys] at hdone
    cases hdone
  · intro response hresponse
    rw [huploading.handleSocketOut sys, huploading.heads] at hresponse
    cases hresponse
  · obtain ⟨hbuffer, hout⟩ := handleSocketOut_done hdone
    exact (hstarted.handleSocketOut (hstarted.responds hphase hopen) sys).framed hbuffer hout

theorem short_single {path content : Bytes} (hlength : content.length < 2 ^ 31) :
    FileSystem.Short { table := fun p => if p = path then some { kind := .regular content } else none } := by
  intro p n content' hnode hkind
  dsimp only [FileSystem.node] at hnode
  split_ifs at hnode
  cases hnode
  cases hkind
  exact hlength

set_option maxRecDepth 10000 in
/-- The file is read and sent by the first call of `handleOut`, and the second one is done. -/
theorem framed_run_file :
    let c := fileClient.run
      [.clientIn (.receiving fileRequest), .clientOut { Sys.quiet 0 with send := .accepted 1000 }]
    c.context.world.heads.length = 1 ∧ Framed (c.handleSocketOut (.quiet 0)).2 :=
  ⟨by decide +kernel, framed_run _ fileSystem 3 4 0
    [.clientIn (.receiving fileRequest), .clientOut { Sys.quiet 0 with send := .accepted 1000 }]
    (.quiet 0) (short_single (by decide))
    ⟨fun hwrites => absurd hwrites (by decide), trivial, trivial⟩
    ⟨⟨by decide +kernel, fun hwrites => absurd hwrites.1 (by decide)⟩, trivial, trivial⟩
    (by decide +kernel) (by decide +kernel) (by decide +kernel) (by decide +kernel)⟩

/-! ## A page that is announced only -/

/-- A client of a location for DELETE, with a page for 404. -/
def deleteClient : Client :=
  init (.single 3 { pageBlock with locations := [{ fileLocation with allowed := 4 }] } fun _ => 0)
    { table := fun p => if p = bytes "/e" then some { kind := .regular (bytes "gone") } else none } 3 4 0

def deleteRequest : Bytes := bytes "DELETE /a HTTP/1.1\r\nHost: h\r\n\r\n"

set_option maxRecDepth 10000 in
/-- The four bytes of the page are announced, and nothing follows the head. -/
theorem not_framed :
    let fs : FileSystem :=
      { table := fun p => if p = bytes "/e" then some { kind := .regular (bytes "gone") } else none }
    let es := [.clientIn (.receiving deleteRequest)]
    let sys := { Sys.quiet 0 with send := .accepted 1000 }
    let c := deleteClient.run es
    deleteClient.context.world.fs = fs ∧ fs.Short ∧
      Transition.Along step Undisturbed deleteClient es ∧ c.context.method = .delete ∧
      c.context.cgiSocket = -1 ∧ c.closed = false ∧ (c.handleSocketOut sys).1 = .reqDone ∧
      ¬ Framed (c.handleSocketOut sys).2 := by
  refine ⟨rfl, short_single (by decide), ⟨fun hwrites => absurd hwrites (by decide), trivial⟩,
    by decide +kernel, by decide +kernel, by decide +kernel, by decide +kernel, fun hframed => ?_⟩
  have hsent : (((deleteClient.run [.clientIn (.receiving deleteRequest)]).handleSocketOut
      { Sys.quiet 0 with send := .accepted 1000 }).2.context.world.heads.map fun r =>
        (r.head, r.headers.find? headerContentLength)) =
      [(((deleteClient.run [.clientIn (.receiving deleteRequest)]).handleSocketOut
        { Sys.quiet 0 with send := .accepted 1000 }).2.context.world.sent, some (bytes "4"))] := by
    decide +kernel
  unfold Framed at hframed
  generalize ((deleteClient.run [.clientIn (.receiving deleteRequest)]).handleSocketOut
    { Sys.quiet 0 with send := .accepted 1000 }).2.context.world = world at hsent hframed
  obtain ⟨r, hr, hpair⟩ := List.map_eq_singleton_iff.mp hsent
  obtain ⟨hhead, hvalue⟩ := Prod.mk.inj hpair
  obtain ⟨body, hbody, hlength⟩ := hframed r (by rw [hr]; exact List.mem_singleton_self r) _ hvalue
  rw [hhead] at hbody
  obtain rfl : body = [] := List.append_right_eq_self.mp hbody.symm
  exact absurd hlength (by decide)

end Client
end Webserv
