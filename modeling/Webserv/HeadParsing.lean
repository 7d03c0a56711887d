import Webserv.Client
import Webserv.Lib.Resumable

/-!
# The head parser and the cuts of the stream

The two parsers of the head keep their place in the flags, in the header map and in the buffer, and erase
what they have consumed.  So a call that waits can be made up for by a later call, unless the limit on the
request line strikes between the two.

* `parseHeadersLoop_of_le`: the fuel of the header loop is enough.
* `Resuming`: a call, and a later one with more bytes, amount to one call on all the bytes.
* `resumes_headParser`: the head parser is resumable on the streams whose first line end comes in time.
* `receiveHead_eq_receiveHead`: two ways of cutting such a stream have the same outcome.

## Why one more read is enough

A stream can be cut in many ways, and the outcome is to be the same for all.  It is enough to show that a
cut can be left out: what a parser does with some bytes, and then with some more, is what it does with all
of them.  This is the notion of a resumable parser, and the library has the induction from it to whole
streams.  What remains are the three places where the parser looks at the end of the buffer: it searches for
a line end, it tests whether enough bytes are there for the limit, and it stops at an empty line.

## Why the limit is a condition

The request line is refused when the buffer has grown beyond the limit without a line end in it.  Whether it
has depends on the reads: a line of exactly the limit is refused when a read ends between its two last
bytes, and accepted otherwise.  For a stream whose first line end begins before the limit the test never
strikes (`LineInTime`), and after the request line it is not made any more.

## Where the outcome is complete

`HeadOutcome` holds everything that the head leaves behind: the status, or the method, the target, the
query, the version, the header map and the bytes that belong to the body.  Two cuts agree in all of it.
-/

namespace Webserv
namespace RequestContext

open Resumable

/-! ## Bytes that arrive later -/

/-- The same context with more bytes in the buffer. -/
def more (ctx : RequestContext) (x : Bytes) : RequestContext :=
  { ctx with buffer := ctx.buffer ++ x }

@[simp] theorem more_buffer (ctx : RequestContext) (x : Bytes) :
    (ctx.more x).buffer = ctx.buffer ++ x := rfl

@[simp] theorem more_requestState (ctx : RequestContext) (x : Bytes) :
    (ctx.more x).requestState = ctx.requestState := rfl

@[simp] theorem more_headers (ctx : RequestContext) (x : Bytes) :
    (ctx.more x).headers = ctx.headers := rfl

/-- The parsers of one line do not look at the buffer. -/
theorem parseVersion_more (ctx : RequestContext) (line x : Bytes) :
    (ctx.more x).parseVersion line = (ctx.parseVersion line).more x := by
  unfold parseVersion
  split_ifs <;> rfl

theorem splitQuery_more (ctx : RequestContext) (x : Bytes) :
    (ctx.more x).splitQuery = ctx.splitQuery.more x := by
  have htarget : (ctx.more x).target = ctx.target := rfl
  unfold splitQuery
  rw [htarget]
  cases Search.findSub [question] ctx.target <;> rfl

theorem parseTarget_more (ctx : RequestContext) (line x : Bytes) :
    (ctx.more x).parseTarget line = (ctx.parseTarget line).more x := by
  unfold parseTarget
  cases Search.findSub [space] line with
  | none => rfl
  | some pos =>
    show (if (line.take pos).head? ≠ some slash then _ else _) = RequestContext.more (ite _ _ _) x
    split_ifs with h
    · rfl
    · rw [← parseVersion_more, ← splitQuery_more]
      rfl

theorem parseMethod_more (ctx : RequestContext) (line x : Bytes) :
    (ctx.more x).parseMethod line = (ctx.parseMethod line).more x := by
  unfold parseMethod
  cases Search.findSub [space] line with
  | none => rfl
  | some pos =>
    show (if line.take pos = [] then _ else _) = RequestContext.more (ite _ _ _) x
    split_ifs with hempty
    · rfl
    · show (if ¬ (Method.ofString (line.take pos)).isValid then _ else _) =
        RequestContext.more (ite _ _ _) x
      split_ifs with hvalid
      · exact parseTarget_more { ctx with method := Method.ofString (line.take pos) } _ x
      · rfl

/-! ## One line of the buffer -/

theorem find_crlf (b : Bytes) : BinaryBuffer.find b crlf = Search.findSub crlf b :=
  BinaryBuffer.find_eq_findSub (by decide)

/-- The context without its first line. -/
def dropLine (ctx : RequestContext) (pos : Nat) : RequestContext :=
  { ctx with buffer := ctx.buffer.drop (pos + 2) }

/-- A line that is there stays there, and what is left grows by what arrives. -/
theorem dropLine_more {ctx : RequestContext} {pos : Nat}
    (h : Search.findSub crlf ctx.buffer = some pos) (x : Bytes) :
    (ctx.more x).dropLine pos = (ctx.dropLine pos).more x := by
  have hle : pos + 2 ≤ ctx.buffer.length := Search.add_le_of_findSub h
  rw [dropLine, dropLine, more, more]
  simp only [List.drop_append_of_le_length hle]

theorem take_more {ctx : RequestContext} {pos : Nat}
    (h : Search.findSub crlf ctx.buffer = some pos) (x : Bytes) :
    (ctx.more x).buffer.take pos = ctx.buffer.take pos := by
  have hle : pos + 2 ≤ ctx.buffer.length := Search.add_le_of_findSub h
  rw [more_buffer, List.take_append_of_le_length (by omega)]

/-- The header loop, one line at a time. -/
theorem parseHeadersLoop_succ (n : Nat) (ctx : RequestContext) :
    parseHeadersLoop (n + 1) ctx =
      match Search.findSub crlf ctx.buffer with
      | none => (.reqContinue, ctx)
      | some pos =>
        if ctx.buffer.take pos = [] then
          if (ctx.headers.find? headerHost).isNone then
            (.reqDone, (ctx.dropLine pos).refuse statusBadRequest)
          else (.reqDone, (ctx.dropLine pos).setState RequestState.setReadHeadersComplete)
        else
          match Search.findSub (bytes ": ") (ctx.buffer.take pos) with
          | none => (.reqDone, (ctx.dropLine pos).refuse statusBadRequest)
          | some q =>
            parseHeadersLoop n
              { ctx.dropLine pos with
                headers := ctx.headers.insert ((ctx.buffer.take pos).take q)
                  ((ctx.buffer.take pos).drop (q + 2)) } := by
  rw [parseHeadersLoop, find_crlf]
  cases Search.findSub crlf ctx.buffer with
  | none => rfl
  | some pos =>
    simp only [BinaryBuffer.substr_zero, BinaryBuffer.erase_zero]
    rfl

/-- Each line takes bytes off the buffer, so its length is fuel enough, and more fuel changes nothing. -/
theorem parseHeadersLoop_of_le : ∀ {n : Nat} {ctx : RequestContext}, ctx.buffer.length ≤ n →
    parseHeadersLoop n ctx = ctx.parseHeaders := by
  suffices h : ∀ (n m : Nat) (ctx : RequestContext), ctx.buffer.length ≤ n →
      ctx.buffer.length ≤ m → parseHeadersLoop n ctx = parseHeadersLoop m ctx from
    fun {n ctx} hn => h n _ ctx hn le_rfl
  have hnil : ∀ (m : Nat) (ctx : RequestContext), ctx.buffer = [] →
      parseHeadersLoop m ctx = (.reqContinue, ctx) := by
    intro m ctx hb
    cases m with
    | zero => rfl
    | succ m => rw [parseHeadersLoop_succ, hb]; rfl
  intro n
  induction n with
  | zero =>
    intro m ctx hn _
    have hb : ctx.buffer = [] := List.eq_nil_of_length_eq_zero (by omega)
    rw [hnil 0 ctx hb, hnil m ctx hb]
  | succ n ih =>
    intro m ctx hn hm
    cases m with
    | zero =>
      have hb : ctx.buffer = [] := List.eq_nil_of_length_eq_zero (by omega)
      rw [hnil _ ctx hb, hnil 0 ctx hb]
    | succ m =>
      rw [parseHeadersLoop_succ, parseHeadersLoop_succ]
      cases hf : Search.findSub crlf ctx.buffer with
      | none => rfl
      | some pos =>
        have hle : pos + 2 ≤ ctx.buffer.length := Search.add_le_of_findSub hf
        have hdrop : (ctx.dropLine pos).buffer.length = ctx.buffer.length - (pos + 2) := by
          rw [dropLine, List.length_drop]
        dsimp only
        split_ifs with hempty hhost
        · rfl
        · rfl
        · cases Search.findSub (bytes ": ") (ctx.buffer.take pos) with
          | none => rfl
          | some q => exact ih m _ (by simp only; omega) (by simp only; omega)

theorem parseHeaders_eq (ctx : RequestContext) :
    ctx.parseHeaders =
      match Search.findSub crlf ctx.buffer with
      | none => (.reqContinue, ctx)
      | some pos =>
        if ctx.buffer.take pos = [] then
          if (ctx.headers.find? headerHost).isNone then
            (.reqDone, (ctx.dropLine pos).refuse statusBadRequest)
          else (.reqDone, (ctx.dropLine pos).setState RequestState.setReadHeadersComplete)
        else
          match Search.findSub (bytes ": ") (ctx.buffer.take pos) with
          | none => (.reqDone, (ctx.dropLine pos).refuse statusBadRequest)
          | some q =>
            { ctx.dropLine pos with
              headers := ctx.headers.insert ((ctx.buffer.take pos).take q)
                ((ctx.buffer.take pos).drop (q + 2)) }.parseHeaders := by
  have hfuel : parseHeadersLoop (ctx.buffer.length + 1) ctx = ctx.parseHeaders :=
    parseHeadersLoop_of_le (Nat.le_succ _)
  rw [← hfuel, parseHeadersLoop_succ]
  cases hf : Search.findSub crlf ctx.buffer with
  | none => rfl
  | some pos =>
    dsimp only
    split_ifs
    · rfl
    · rfl
    · cases Search.findSub (bytes ": ") (ctx.buffer.take pos) with
      | none => rfl
      | some q =>
        refine parseHeadersLoop_of_le ?_
        rw [dropLine, List.length_drop]
        omega

/-! ## The parsers resume -/

/-- A call of a parser, and a later call with more bytes, amount to one call on all the bytes: the flags,
the map and the buffer are the whole memory. -/
def Resuming (parse : RequestContext → Ret × RequestContext) (ctx : RequestContext) (x : Bytes) :
    Prop :=
  match parse ctx with
  | (.reqContinue, ctx') => parse (ctx'.more x) = parse (ctx.more x)
  | (ret, ctx') => parse (ctx.more x) = (ret, ctx'.more x)

theorem resuming_parseHeaders (x : Bytes) (ctx : RequestContext) :
    Resuming parseHeaders ctx x := by
  induction hn : ctx.buffer.length using Nat.strong_induction_on generalizing ctx with
  | _ n ih =>
    unfold Resuming
    rw [parseHeaders_eq ctx]
    cases hf : Search.findSub crlf ctx.buffer with
    | none => rfl
    | some pos =>
      -- the line is complete, and more bytes do not change it
      have hmore : Search.findSub crlf (ctx.more x).buffer = some pos := Search.findSub_append x hf
      have hle : pos + 2 ≤ ctx.buffer.length := Search.add_le_of_findSub hf
      rw [parseHeaders_eq (ctx.more x), hmore]
      dsimp only
      rw [take_more hf, dropLine_more hf, more_headers]
      split_ifs with hempty hhost
      · rfl
      · rfl
      · cases Search.findSub (bytes ": ") (ctx.buffer.take pos) with
        | none => rfl
        | some q =>
          have hlt : (ctx.dropLine pos).buffer.length < n := by
            rw [dropLine, List.length_drop]
            omega
          exact ih _ hlt { ctx.dropLine pos with headers := _ } rfl

/-- The first line end of what is left of the stream comes before the limit, unless the request
line has been read. -/
def LineInTime (ctx : RequestContext) (stream : Bytes) : Prop :=
  ctx.requestState.isReadRequestLineComplete = false →
    ∃ pos, Search.findSub crlf stream = some pos ∧ pos < requestLineLimit

theorem resuming_parseRequestLine {ctx : RequestContext} {x : Bytes}
    (hline : ∃ pos, Search.findSub crlf (ctx.buffer ++ x) = some pos ∧ pos < requestLineLimit) :
    Resuming parseRequestLine ctx x := by
  obtain ⟨pos, hpos, hlt⟩ := hline
  unfold requestLineLimit at hlt
  unfold Resuming
  cases hf : Search.findSub crlf ctx.buffer with
  | none =>
    -- the line end is still to come, so what is there is short
    have hshort := Search.lt_add_of_findSub_append hf hpos
    have hwait : ctx.parseRequestLine = (.reqContinue, ctx) := by
      rw [parseRequestLine, find_crlf, hf]
      dsimp only
      rw [if_neg]
      simp only [crlf, List.length_cons, List.length_nil] at hshort
      unfold requestLineLimit
      omega
    rw [hwait]
  | some p =>
    have hmore : Search.findSub crlf (ctx.more x).buffer = some p := Search.findSub_append x hf
    have hp : p = pos := by
      rw [more_buffer, hpos] at hmore
      exact (Option.some.inj hmore).symm
    subst hp
    have hle : ¬ p > requestLineLimit := by
      unfold requestLineLimit
      omega
    rw [parseRequestLine, parseRequestLine, find_crlf, find_crlf, hf, hmore]
    dsimp only
    rw [if_neg hle, if_neg hle]
    simp only [BinaryBuffer.substr_zero, BinaryBuffer.erase_zero]
    show ((_, parseMethod ((ctx.more x).dropLine p) ((ctx.more x).buffer.take p)) : Ret × _) =
      (_, (parseMethod (ctx.dropLine p) (ctx.buffer.take p)).more x)
    rw [take_more hf, dropLine_more hf, parseMethod_more]

/-! ## What the parsers can do -/

/-- The fields that the head parser fills in, the buffer among them.  All others it leaves alone, but for
the flags and the status. -/
structure HeadFields where
  buffer : Bytes
  method : Method
  target : Bytes
  protocolVersion : Bytes
  queries : Queries
  headers : StringMap

/-- The context with the fields of the head replaced.  All that the head parser does is of this form. -/
def withHead (ctx : RequestContext) (f : HeadFields) : RequestContext :=
  { ctx with
    buffer := f.buffer
    method := f.method
    target := f.target
    protocolVersion := f.protocolVersion
    queries := f.queries
    headers := f.headers }

/-- The three ways in which the parser of one stage ends: it waits, it refuses, or the stage is
complete. -/
inductive HeadStep (complete : RequestState → RequestState) (ctx : RequestContext) :
    Ret × RequestContext → Prop where
  | wait (f : HeadFields) : HeadStep complete ctx (.reqContinue, ctx.withHead f)
  | refuse (f : HeadFields) (code : Nat) (hcode : isErrorCode code) :
      HeadStep complete ctx (.reqDone, (ctx.withHead f).refuse code)
  | done (f : HeadFields) : HeadStep complete ctx (.reqDone, (ctx.withHead f).setState complete)

theorem headStep_parseMethod (ctx : RequestContext) (f : HeadFields) (line : Bytes) :
    HeadStep RequestState.setReadRequestLineComplete ctx
      (.reqDone, (ctx.withHead f).parseMethod line) := by
  have hversion : ∀ (f : HeadFields) (line : Bytes),
      HeadStep RequestState.setReadRequestLineComplete ctx
        (.reqDone, (ctx.withHead f).parseVersion line) := by
    intro f line
    unfold parseVersion
    dsimp only
    split_ifs
    · exact .refuse { f with protocolVersion := line } _ rfl
    · exact .refuse { f with protocolVersion := line } _ rfl
    · exact .done { f with protocolVersion := line }
  have hquery : ∀ f : HeadFields, ∃ f', (ctx.withHead f).splitQuery = ctx.withHead f' := by
    intro f
    unfold splitQuery
    cases Search.findSub [question] (ctx.withHead f).target with
    | none => exact ⟨f, rfl⟩
    | some pos =>
      exact ⟨{ f with
        queries := Queries.ofString (f.target.drop (pos + 1)), target := f.target.take pos }, rfl⟩
  have htarget : ∀ (f : HeadFields) (line : Bytes),
      HeadStep RequestState.setReadRequestLineComplete ctx
        (.reqDone, (ctx.withHead f).parseTarget line) := by
    intro f line
    unfold parseTarget
    cases Search.findSub [space] line with
    | none => exact .refuse f _ rfl
    | some pos =>
      dsimp only
      split_ifs
      · exact .refuse { f with target := line.take pos } _ rfl
      · obtain ⟨f', hf'⟩ := hquery { f with target := line.take pos }
        have heq : { ctx.withHead f with target := line.take pos }.splitQuery = ctx.withHead f' :=
          hf'
        rw [heq]
        exact hversion f' _
  unfold parseMethod
  cases Search.findSub [space] line with
  | none => exact .refuse f _ rfl
  | some pos =>
    dsimp only
    split_ifs
    · exact .refuse f _ rfl
    · exact htarget { f with method := Method.ofString (line.take pos) } _
    · exact .refuse { f with method := Method.ofString (line.take pos) } _ rfl

/-- The request line is waited for as it is, refused, or read. -/
theorem headStep_parseRequestLine (ctx : RequestContext) :
    ctx.parseRequestLine = (.reqContinue, ctx) ∨
      ∃ ctx', ctx.parseRequestLine = (.reqDone, ctx') ∧
        HeadStep RequestState.setReadRequestLineComplete ctx (.reqDone, ctx') := by
  let self : HeadFields :=
    ⟨ctx.buffer, ctx.method, ctx.target, ctx.protocolVersion, ctx.queries, ctx.headers⟩
  rw [parseRequestLine]
  cases BinaryBuffer.find ctx.buffer crlf with
  | none =>
    dsimp only
    split_ifs
    · exact Or.inr ⟨_, rfl, .refuse self _ rfl⟩
    · exact Or.inl rfl
  | some pos =>
    dsimp only
    split_ifs
    · exact Or.inr ⟨_, rfl, .refuse self _ rfl⟩
    · exact Or.inr ⟨_, rfl, headStep_parseMethod ctx
        { self with buffer := BinaryBuffer.erase ctx.buffer 0 (pos + 2) } _⟩

theorem headStep_parseHeaders (ctx : RequestContext) :
    HeadStep RequestState.setReadHeadersComplete ctx ctx.parseHeaders := by
  suffices h : ∀ (n : Nat) (f : HeadFields), f.buffer.length = n →
      HeadStep RequestState.setReadHeadersComplete ctx (ctx.withHead f).parseHeaders from
    h _ ⟨ctx.buffer, ctx.method, ctx.target, ctx.protocolVersion, ctx.queries, ctx.headers⟩ rfl
  intro n
  induction n using Nat.strong_induction_on with
  | _ n ih =>
    intro f hn
    rw [parseHeaders_eq]
    cases hf : Search.findSub crlf (ctx.withHead f).buffer with
    | none => exact .wait f
    | some pos =>
      have hle : pos + 2 ≤ f.buffer.length := Search.add_le_of_findSub hf
      let f' : HeadFields := { f with buffer := f.buffer.drop (pos + 2) }
      have hlt : f'.buffer.length < n := by
        show (f.buffer.drop (pos + 2)).length < n
        rw [List.length_drop]
        omega
      dsimp only
      split_ifs
      · exact .refuse f' _ rfl
      · exact .done f'
      · cases Search.findSub (bytes ": ") ((ctx.withHead f).buffer.take pos) with
        | none => exact .refuse f' _ rfl
        | some q => exact ih _ hlt { f' with headers := _ } rfl

/-- A request line that has been consumed is marked as read, refused or not. -/
theorem HeadStep.requestLine {ctx ctx' : RequestContext}
    (h : HeadStep RequestState.setReadRequestLineComplete ctx (.reqDone, ctx')) :
    ctx'.requestState.isReadRequestLineComplete = true := by
  cases h <;> rfl

/-- While it waits, the header parser leaves the flags alone. -/
theorem requestState_of_parseHeaders {ctx ctx' : RequestContext}
    (h : ctx.parseHeaders = (.reqContinue, ctx')) : ctx'.requestState = ctx.requestState := by
  have hstep := headStep_parseHeaders ctx
  rw [h] at hstep
  cases hstep
  rfl

/-! ## The head parser resumes -/

/-- The stage of `parseHead` after the request line. -/
theorem parseHead_of_requestLine {ctx : RequestContext}
    (h : ctx.requestState.isReadRequestLineComplete = true) :
    ctx.parseHead =
      if ctx.requestState.isReadHeadersComplete then (.reqDone, ctx) else ctx.parseHeaders := by
  rw [parseHead, if_pos h]

theorem parseHead_of_not_requestLine {ctx ctx' : RequestContext}
    (h : ctx.requestState.isReadRequestLineComplete = false)
    (hline : ctx.parseRequestLine = (.reqDone, ctx'))
    (hctx' : ctx'.requestState.isReadRequestLineComplete = true) :
    ctx.parseHead = ctx'.parseHead := by
  rw [parseHead_of_requestLine hctx', parseHead, if_neg (by rw [h]; decide), hline]

theorem resuming_parseHead_of_requestLine {ctx : RequestContext}
    (h : ctx.requestState.isReadRequestLineComplete = true) (x : Bytes) :
    Resuming parseHead ctx x := by
  unfold Resuming
  rw [parseHead_of_requestLine h, @parseHead_of_requestLine (ctx.more x) h, more_requestState]
  split_ifs with hheaders
  · rfl
  · have hres := resuming_parseHeaders x ctx
    unfold Resuming at hres
    revert hres
    cases hp : ctx.parseHeaders with
    | mk ret ctx' =>
      cases ret with
      | reqContinue =>
        intro hres
        have hstate := requestState_of_parseHeaders hp
        have hline : (ctx'.more x).requestState.isReadRequestLineComplete = true := by
          rw [more_requestState, hstate, h]
        show (ctx'.more x).parseHead = _
        rw [parseHead_of_requestLine hline, more_requestState, hstate, if_neg hheaders]
        exact hres
      | _ => exact id

theorem resuming_parseHead {ctx : RequestContext} {x : Bytes}
    (hline : LineInTime ctx (ctx.buffer ++ x)) : Resuming parseHead ctx x := by
  cases h : ctx.requestState.isReadRequestLineComplete with
  | true => exact resuming_parseHead_of_requestLine h x
  | false =>
    have hres := resuming_parseRequestLine (hline h)
    unfold Resuming at hres ⊢
    rcases headStep_parseRequestLine ctx with hwait | ⟨ctx', hdone, hstep⟩
    · have hhead : ctx.parseHead = (.reqContinue, ctx) := by
        rw [parseHead, if_neg (by rw [h]; decide), hwait]
      rw [hhead]
    · rw [hdone] at hres
      have hread := hstep.requestLine
      rw [parseHead_of_not_requestLine h hdone hread,
        @parseHead_of_not_requestLine (ctx.more x) _ h hres hread]
      exact resuming_parseHead_of_requestLine hread x

/-- After a wait the request line has been read, or nothing has happened. -/
theorem wait_parseHead {ctx ctx' : RequestContext} (h : ctx.parseHead = (.reqContinue, ctx')) :
    ctx' = ctx ∨ ctx'.requestState.isReadRequestLineComplete = true := by
  cases hread : ctx.requestState.isReadRequestLineComplete with
  | true =>
    rw [parseHead_of_requestLine hread] at h
    split_ifs at h
    · cases h
    · exact Or.inr (by rw [requestState_of_parseHeaders h, hread])
  | false =>
    rcases headStep_parseRequestLine ctx with hwait | ⟨ctx₁, hdone, hstep⟩
    · rw [parseHead, if_neg (by rw [hread]; decide), hwait] at h
      cases h
      exact Or.inl rfl
    · have hread₁ := hstep.requestLine
      rw [parseHead_of_not_requestLine hread hdone hread₁, parseHead_of_requestLine hread₁] at h
      split_ifs at h
      · cases h
      · exact Or.inr (by rw [requestState_of_parseHeaders h, hread₁])

/-- The context with the fields of the head replaced, and with other flags. -/
def withHeadState (ctx : RequestContext) (f : HeadFields) (x : RequestState) : RequestContext :=
  { ctx.withHead f with requestState := x }

/-- The three ends of a call of the head parser, before a head was accepted or refused. -/
inductive HeadParsed (ctx : RequestContext) : Ret × RequestContext → Prop where
  | waiting (f : HeadFields) (requestLine : Bool) :
      HeadParsed ctx (.reqContinue, ctx.withHeadState f { requestLine := requestLine })
  | refused (f : HeadFields) (code : Nat) (hcode : isErrorCode code) :
      HeadParsed ctx (.reqDone, (ctx.withHeadState f
        { requestLine := true, headers := true, read := true }).setStatusCode code)
  | accepted (f : HeadFields) :
      HeadParsed ctx (.reqDone, ctx.withHeadState f { requestLine := true, headers := true })

theorem headParsed_parseHead {ctx : RequestContext} {requestLine : Bool}
    (hstate : ctx.requestState = { requestLine := requestLine }) : HeadParsed ctx ctx.parseHead := by
  -- the headers of a context whose request line has been read
  have hheaders : ∀ (f : HeadFields),
      HeadParsed ctx (ctx.withHeadState f { requestLine := true }).parseHead := by
    intro f
    have hread : (ctx.withHeadState f { requestLine := true }).requestState = { requestLine := true } :=
      rfl
    rw [parseHead_of_requestLine (by rw [hread]; rfl), hread, if_neg (by decide)]
    have hstep := headStep_parseHeaders (ctx.withHeadState f { requestLine := true })
    generalize (ctx.withHeadState f { requestLine := true }).parseHeaders = r at hstep ⊢
    cases hstep with
    | wait g => exact .waiting g true
    | refuse g code hcode => exact .refused g code hcode
    | done g => exact .accepted g
  let self : HeadFields :=
    ⟨ctx.buffer, ctx.method, ctx.target, ctx.protocolVersion, ctx.queries, ctx.headers⟩
  have hself : ctx.withHeadState self { requestLine := requestLine } = ctx := by
    rw [withHeadState, ← hstate]
    rfl
  cases requestLine with
  | true =>
    have hparsed := hheaders self
    rwa [hself] at hparsed
  | false =>
    have hfalse : ctx.requestState.isReadRequestLineComplete = false := by rw [hstate]; rfl
    rcases headStep_parseRequestLine ctx with hwait | ⟨ctx', hdone, hstep⟩
    · rw [parseHead, if_neg (by rw [hfalse]; decide), hwait]
      dsimp only
      have hwaiting : HeadParsed ctx (.reqContinue, ctx.withHeadState self { requestLine := false }) :=
        .waiting self false
      rwa [hself] at hwaiting
    · rw [parseHead_of_not_requestLine hfalse hdone hstep.requestLine]
      have hset : ctx.requestState.setReadRequestLineComplete = { requestLine := true } := by
        rw [hstate]
        rfl
      cases hstep with
      | refuse f code hcode =>
        have hcomplete : ctx.requestState.setReadComplete =
            { requestLine := true, headers := true, read := true } := by
          rw [hstate]
          rfl
        have hctx : (ctx.withHead f).refuse code = (ctx.withHeadState f
            { requestLine := true, headers := true, read := true }).setStatusCode code := by
          rw [← hcomplete]
          rfl
        have hhead : ((ctx.withHeadState f
            { requestLine := true, headers := true, read := true }).setStatusCode code).parseHead =
            (.reqDone, (ctx.withHeadState f
              { requestLine := true, headers := true, read := true }).setStatusCode code) :=
          (parseHead_of_requestLine rfl).trans (if_pos rfl)
        rw [hctx, hhead]
        exact .refused f code hcode
      | done f =>
        have hctx : (ctx.withHead f).setState RequestState.setReadRequestLineComplete =
            ctx.withHeadState f { requestLine := true } := by
          rw [← hset]
          rfl
        rw [hctx]
        exact hheaders f

/-- The context with another buffer. -/
def withBuffer (ctx : RequestContext) (b : Bytes) : RequestContext := { ctx with buffer := b }

/-- The head parser, its state the context without the buffer. -/
def headParser : Parser RequestContext Byte RequestContext := fun ctx b =>
  match (ctx.withBuffer b).parseHead with
  | (.reqContinue, ctx) => .wait (ctx.withBuffer []) ctx.buffer
  | (_, ctx) => .stop (ctx.withBuffer []) ctx.buffer

theorem resumes_headParser : Resumes LineInTime headParser where
  wait := by
    intro ctx b x ctx' b' hline hcall
    have hres := @resuming_parseHead (ctx.withBuffer b) x hline
    unfold Resuming at hres
    unfold headParser at hcall ⊢
    revert hcall hres
    cases hp : (ctx.withBuffer b).parseHead with
    | mk ret ctx₁ =>
      cases ret with
      | reqContinue =>
        intro hcall hres
        cases hcall
        refine ⟨?_, ?_⟩
        · rcases wait_parseHead hp with rfl | hread
          · exact hline
          · intro hpending
            exact absurd (hread.symm.trans hpending) (by decide)
        · have hsame : ((ctx₁.withBuffer []).withBuffer (ctx₁.buffer ++ x)).parseHead =
              (ctx.withBuffer (b ++ x)).parseHead := hres
          rw [hsame]
      | _ =>
        intro hcall _
        cases hcall
  stop := by
    intro ctx b x ctx' b' hline hcall
    have hres := @resuming_parseHead (ctx.withBuffer b) x hline
    unfold Resuming at hres
    unfold headParser at hcall ⊢
    revert hcall hres
    cases hp : (ctx.withBuffer b).parseHead with
    | mk ret ctx₁ =>
      cases ret with
      | reqContinue =>
        intro hcall _
        cases hcall
      | _ =>
        intro hcall hres
        cases hcall
        have hsame : (ctx.withBuffer (b ++ x)).parseHead = (_, ctx₁.more x) := hres
        rw [hsame]
        rfl

/-! ## Receiving a head -/

/-- How the reception of a head ends: more bytes are needed, it is refused with a status, or it is
accepted with the fields of the head and the bytes after it. -/
inductive HeadOutcome where
  | waiting
  | rejected (status : Nat)
  | accepted (method : Method) (target queryLine protocolVersion : Bytes) (headers : StringMap)
    (remaining : Bytes)

/-- The outcome when the head is done with, `tail` being the bytes not read yet. -/
def headOutcome (ctx : RequestContext) (tail : Bytes) : HeadOutcome :=
  if ctx.response.statusCode ≠ statusNone then .rejected ctx.response.statusCode
  else
    .accepted ctx.method ctx.target ctx.queries.queryLine ctx.protocolVersion ctx.headers
      (ctx.buffer ++ tail)

/-- The reads one by one, the parsers being called after each until the head is done with. -/
def receiveHead (ctx : RequestContext) : List Bytes → HeadOutcome
  | [] => .waiting
  | read :: reads =>
    match (ctx.more read).parseHead with
    | (.reqContinue, ctx) => receiveHead ctx reads
    | (_, ctx) => headOutcome ctx reads.flatten

/-- The outcome of a verdict of the head parser. -/
def verdictOutcome : Verdict RequestContext Byte RequestContext → HeadOutcome
  | .wait _ _ => .waiting
  | .stop ctx b => headOutcome ctx b

/-- Receiving a head is feeding the head parser.  The independence of the split is then that of `feed`,
proved once for every such parser. -/
theorem receiveHead_eq_feed : ∀ (reads : List Bytes) (ctx : RequestContext),
    receiveHead ctx reads =
      verdictOutcome (feed headParser (.wait (ctx.withBuffer []) ctx.buffer) reads)
  | [], ctx => rfl
  | read :: reads, ctx => by
    have hcall : (ctx.withBuffer []).withBuffer (ctx.buffer ++ read) = ctx.more read := rfl
    rw [receiveHead, feed_cons, Verdict.extend, headParser, hcall]
    cases (ctx.more read).parseHead with
    | mk ret ctx' =>
      cases ret with
      | reqContinue => exact receiveHead_eq_feed reads ctx'
      | _ =>
        dsimp only
        rw [feed_stop]
        rfl

/-- **The head does not depend on how the stream is cut.**  Two ways of cutting into non-empty reads
a stream whose first line end starts before the limit have the same outcome. -/
theorem receiveHead_eq_receiveHead (ctx : RequestContext) (xs ys : List Bytes)
    (hxs : ∀ x ∈ xs, x ≠ []) (hys : ∀ y ∈ ys, y ≠ []) (hflat : xs.flatten = ys.flatten)
    (hline : ∃ pos, Search.findSub crlf (ctx.buffer ++ xs.flatten) = some pos ∧
      pos < requestLineLimit) :
    receiveHead ctx xs = receiveHead ctx ys := by
  rw [receiveHead_eq_feed, receiveHead_eq_feed,
    feed_eq_feed resumes_headParser hxs hys hflat fun _ => hline]

/-- A head cut inside the request line, between CR and LF and before the empty line. -/
theorem receiveHead_eq_receiveHead_cut :
    let ctx := (Client.init (Server.single 3 {} fun _ => 0) { table := fun _ => none } 3 4 0).context
    receiveHead ctx [bytes "GET /a HT", bytes "TP/1.1\r", bytes "\nHost: h\r\n", bytes "\r\nxy"] =
      receiveHead ctx [bytes "GET /a HTTP/1.1\r\nHost: h\r\n\r\nxy"] :=
  receiveHead_eq_receiveHead _ _ _ (by decide) (by decide) (by decide) ⟨15, by decide, by decide⟩

end RequestContext

/-! ## The head of a client -/

namespace Client

variable {c : Client}

/-- A head that is refused: the status is set, and no request object is made. -/
theorem parseRequest_refused {sys : Sys} {ctx : RequestContext} (h : c.context.parseHead = (.reqDone, ctx))
    (hstatus : ctx.response.statusCode ≠ statusNone) :
    c.parseRequest sys =
      (.reqDone, { c with context := ctx }.setState RequestState.setWorkInComplete) := by
  rw [parseRequest, h]
  exact if_neg hstatus

/-- A head that is accepted: the request is resolved within the same call. -/
theorem parseRequest_accepted {sys : Sys} {ctx : RequestContext}
    (h : c.context.parseHead = (.reqDone, ctx)) (hstatus : ctx.response.statusCode = statusNone) :
    c.parseRequest sys =
      match { c with context := ctx }.resolveARequest sys with
      | (.reqContinue, c) => (.reqDone, c.setState RequestState.setWorkInComplete)
      | r => r := by
  rw [parseRequest, h]
  exact if_pos hstatus

end Client
end Webserv
