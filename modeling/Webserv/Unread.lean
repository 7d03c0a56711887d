import Webserv.RequestLine

/-!
# What the head leaves unread

The head parsers consume lines.  A head that is not complete leaves no line end in the buffer, so that the
next line ends in the bytes that arrive next, and what a complete head leaves is a part of those.

* `noLine_parseHead`: a head that is waited for.
* `length_parseHead`: a head that is complete.

## Why it matters where the body begins

The read that completes a head may bring the beginning of the body with it.  The body reader then gets the
bytes that the head has left, and later reads come one by one.  To say which bytes the reader gets in which
call, one has to know that the first of these is a part of the last read, and has nothing of an earlier one.
This holds because every parser takes whole lines: as long as it waits, what is in the buffer has no line
end, and so the empty line that ends the head has its end in the read that has just come.  The induction is
over the lines of the loop, and over the two parsers one after the other.
-/

namespace Webserv
namespace RequestContext

open Search

/-- No line end is in the buffer: every line that has arrived was consumed. -/
def NoLine (ctx : RequestContext) : Prop := findSub crlf ctx.buffer = none

/-! ## The headers -/

/-- A header line is consumed, and the parser goes on after it. -/
theorem length_dropLine {ctx : RequestContext} {pos : Nat} (hfind : findSub crlf ctx.buffer = some pos) :
    (ctx.dropLine pos).buffer.length + (pos + 2) = ctx.buffer.length := by
  have hle : pos + 2 ≤ ctx.buffer.length := add_le_of_findSub hfind
  rw [dropLine, List.length_drop]
  omega

/-- The parser consumes the first line, or waits for it. -/
theorem length_parseHeaders (ctx : RequestContext) :
    ctx.parseHeaders.2.buffer.length ≤ ctx.buffer.length ∧
      (ctx.parseHeaders.1 = .reqContinue → ctx.parseHeaders.2.NoLine) ∧
        ∀ n, (∀ pos, findSub crlf ctx.buffer = some pos → (ctx.dropLine pos).buffer.length ≤ n) →
          ctx.parseHeaders.1 = .reqDone → ctx.parseHeaders.2.buffer.length ≤ n := by
  induction hn : ctx.buffer.length using Nat.strong_induction_on generalizing ctx with
  | _ n ih =>
    subst hn
    rw [parseHeaders_eq]
    cases hfind : findSub crlf ctx.buffer with
    | none => exact ⟨le_rfl, fun _ => hfind, fun _ _ hdone => by cases hdone⟩
    | some pos =>
      have hdrop := length_dropLine hfind
      dsimp only
      split_ifs
      · exact ⟨by show (ctx.dropLine pos).buffer.length ≤ _; omega, fun hwait => (by cases hwait),
          fun _ hfirst _ => hfirst pos rfl⟩
      · exact ⟨by show (ctx.dropLine pos).buffer.length ≤ _; omega, fun hwait => (by cases hwait),
          fun _ hfirst _ => hfirst pos rfl⟩
      · cases findSub (bytes ": ") (ctx.buffer.take pos) with
        | none =>
          exact ⟨by show (ctx.dropLine pos).buffer.length ≤ _; omega, fun hwait => (by cases hwait),
            fun _ hfirst _ => hfirst pos rfl⟩
        | some q =>
          have hlt : (ctx.dropLine pos).buffer.length < ctx.buffer.length := by omega
          obtain ⟨hle, hwaits, -⟩ := ih _ hlt { ctx.dropLine pos with
            headers := ctx.headers.insert ((ctx.buffer.take pos).take q)
              ((ctx.buffer.take pos).drop (q + 2)) } rfl
          exact ⟨le_trans hle hlt.le, hwaits, fun _ hfirst _ => le_trans hle (hfirst pos rfl)⟩

/-! ## The head -/

/-- A head that is waited for leaves no line end in the buffer. -/
theorem noLine_parseHead {ctx ctx' : RequestContext} (h : ctx.parseHead = (.reqContinue, ctx')) :
    ctx'.NoLine := by
  have hheaders : ∀ ctx : RequestContext, ctx.requestState.isReadRequestLineComplete = true →
      ctx.parseHead = (.reqContinue, ctx') → ctx'.NoLine := by
    intro ctx hread h
    rw [parseHead_of_requestLine hread] at h
    split_ifs at h
    · cases h
    · have hwaits := (length_parseHeaders ctx).2.1
      rw [h] at hwaits
      exact hwaits rfl
  cases hread : ctx.requestState.isReadRequestLineComplete with
  | true => exact hheaders ctx hread h
  | false =>
    rcases headStep_parseRequestLine ctx with hwait | ⟨ctx₁, hdone, hstep⟩
    · rw [parseHead, if_neg (by rw [hread]; decide), hwait] at h
      cases h
      cases hfind : findSub crlf ctx.buffer with
      | none => exact hfind
      | some pos =>
        have hdone := parseRequestLine_of_some hfind
        rw [hwait] at hdone
        cases hdone
    · rw [parseHead_of_not_requestLine hread hdone hstep.requestLine] at h
      exact hheaders ctx₁ hstep.requestLine h

/-- A head that more bytes complete leaves no more than these in the buffer. -/
theorem length_parseHead {ctx ctx' : RequestContext} {x : Bytes} (hnone : ctx.NoLine)
    (hunread : ctx.requestState.isReadHeadersComplete = false)
    (h : (ctx.more x).parseHead = (.reqDone, ctx')) (hstatus : ctx'.response.statusCode = statusNone) :
    ctx'.buffer.length ≤ x.length := by
  have hfirst : ∀ pos, findSub crlf (ctx.more x).buffer = some pos →
      ((ctx.more x).dropLine pos).buffer.length ≤ x.length := by
    intro pos hfind
    have hdrop := length_dropLine hfind
    have hlt : ctx.buffer.length < pos + 2 := lt_add_of_findSub_append hnone hfind
    rw [more_buffer, List.length_append] at hdrop
    omega
  have hstate : (ctx.more x).requestState = ctx.requestState := rfl
  cases hread : ctx.requestState.isReadRequestLineComplete with
  | true =>
    rw [← hstate] at hread
    rw [parseHead_of_requestLine hread, hstate, if_neg (by rw [hunread]; exact Bool.false_ne_true)] at h
    have hdone := (length_parseHeaders (ctx.more x)).2.2 _ hfirst
    rw [h] at hdone
    exact hdone rfl
  | false =>
    rw [← hstate] at hread
    rcases headStep_parseRequestLine (ctx.more x) with hwait | ⟨ctx₁, hdone, hstep⟩
    · rw [parseHead, if_neg (by rw [hread]; decide), hwait] at h
      cases h
    · rw [parseHead_of_not_requestLine hread hdone hstep.requestLine,
        parseHead_of_requestLine hstep.requestLine] at h
      -- the headers are read after the request line, unless it was refused
      have hle : ctx'.buffer.length ≤ ctx₁.buffer.length := by
        split_ifs at h
        · cases h
          exact le_rfl
        · have hheaders := (length_parseHeaders ctx₁).1
          rwa [h] at hheaders
      refine le_trans hle ?_
      have hlong := lineTooLong_iff (ctx.more x)
      unfold LineTooLong at hlong
      rw [hdone] at hlong
      have hnot : ¬ (Ret.reqDone, ctx₁) = (Ret.reqDone, (ctx.more x).refuse statusBadRequest) := by
        intro heq
        have hrefused : ctx₁ = (ctx.more x).refuse statusBadRequest := congrArg Prod.snd heq
        have hcomplete : ctx₁.requestState.isReadHeadersComplete = true := by rw [hrefused]; rfl
        rw [if_pos hcomplete] at h
        obtain rfl : ctx₁ = ctx' := congrArg Prod.snd h
        rw [hrefused] at hstatus
        cases hstatus
      rw [hlong] at hnot
      cases hfind : findSub crlf (ctx.more x).buffer with
      | none =>
        rw [hfind] at hnot
        rw [parseRequestLine, find_crlf, hfind] at hdone
        dsimp only at hdone hnot
        rw [if_neg hnot] at hdone
        cases hdone
      | some pos =>
        rw [hfind] at hnot
        rw [parseRequestLine, find_crlf, hfind] at hdone
        dsimp only at hdone hnot
        rw [if_neg hnot] at hdone
        have hconsumed := congrArg (fun r => r.2.buffer) hdone
        dsimp only at hconsumed
        rw [← hconsumed, parseMethod_buffer, BinaryBuffer.erase_zero]
        exact hfirst pos hfind

end RequestContext
end Webserv
