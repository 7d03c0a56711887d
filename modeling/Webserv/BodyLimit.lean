import Webserv.StickyErrors
import Webserv.Steps
import Webserv.Effects.Starting
import Webserv.Effects.Uploading
import Mathlib.Algebra.GroupWithZero.Nat

/-!
# The limit of a body

The readers check the limit of the location when they learn a size: at the `Content-Length`, and at every
size line, against the sum of the sizes so far.  What they ask of `_writeChunk` stays within the sizes that
they accepted.

* `Handler.asked`: the sizes that a reader asks `_writeChunk` to pass on.
* `readRound_eq`, `readContent_eq`: these are the sizes of its calls of `_writeChunk`, for a file and for a
  CGI; with a CGI they are those of the calls of `send` (`asks_readBody`).
* `Handler.Counted`: the counters leave room for what was asked; a reader keeps this.
* `Client.askedTotal_le`: the limit holds in every run whose reader calls keep it.
* `Client.not_bodyLimit`: a reader that is called again after it has refused a chunk size.

## What is counted

`_writeChunk` takes a size.  For a CGI it is what `send` gets; for a file the function looks at
`_contentLength` instead, and may write more (`UploadFidelity`).  The limit is about what the readers ask,
so `asked` adds up the argument.  It is defined beside the readers and not out of them, which is why it is
tied to them: a round calls `_writeChunk` once, with the size `askedRound`, or ends before the call.

## Why the sum is the invariant

The limit is checked against a sum at size lines only, while the data of a chunk comes in parts.
`CountsChunks` ties three numbers together: what was asked so far and what is missing of the open chunk are
together within the sum of the sizes, and the sum is within the limit.  A size line adds the same number to
the two sides, a part of a chunk moves bytes from one summand to the other.

## Where it fails

After a refusal the counters are not right any more: `_contentLength` may be the `-2` that stands for a bad
number, and it is a size for the next call.  Nothing keeps the reader from being called.  After a `send`
that failed the same bytes are asked for again.  A body in one of these states is `Spoiled`, and the
condition asks that its unread bytes do not bring the reader to its sink, a question that `bodyVerdict`
answers from the state before the call.  Then there is the sum itself, which is an `int32_t`: under a limit
of 2^30 or more it may wrap, and `SizesFit` says of the unread bytes that they cannot make it.
-/

namespace Webserv

/-- The size that `send` is given, which may be more than it takes. -/
def CgiCall.size : CgiCall → Nat
  | .send _ _ len _ => len
  | _ => 0

/-- A `send` that took none of the bytes it was given. -/
def CgiCall.tookNothing : CgiCall → Bool
  | .send _ _ len sent => 0 < len && sent.isEmpty
  | _ => false

namespace Handler

/-! ## What is asked -/

/-- The size that `// Read chunk` asks for: the whole buffer, or what is left of the chunk when that is
less. -/
def askedChunk (h : Handler) : Nat :=
  if toInt32 h.context.buffer.length > h.request.contentLength then toSize h.request.contentLength
  else h.context.buffer.length

/-- The size that a round asks for, if it comes to its chunk. -/
def askedRound (sys : Sys) (h : Handler) : Nat :=
  match readEndOfChunk h >>= readChunkSize sys with
  | .ok h => h.askedChunk
  | .error _ => 0

/-- The sizes that the loop of `_readChunked` asks for, added up. -/
def askedLoop (sys : Sys) : Nat → Handler → Nat
  | 0, _ => 0
  | n + 1, h =>
    if h.context.buffer = [] then 0
    else
      askedRound sys h +
        match readRound sys h with
        | .ok h => askedLoop sys n h
        | .error _ => 0

/-- The length of the data that a call of a body reader asks `_writeChunk` to pass on. -/
def asked (sys : Sys) (h : Handler) : Nat :=
  if h.request.chunked then askedLoop sys h.context.buffer.length h
  else if toInt32 (h.request.contentLength - toInt32 h.context.buffer.length) ≥ 0 then
    h.context.buffer.length
  else 0

/-! ## The calls of `_writeChunk` -/

/-- What `// Read chunk` makes of what `_writeChunk` returned. -/
def endChunk (h : Handler) (r : Ret × Handler) : Round :=
  match r.1 with
  | .reqError => .error r
  | _ =>
    if toInt32 h.context.buffer.length > h.request.contentLength then
      .ok ((r.2.eraseBuffer (toSize r.2.request.contentLength)).setContentLength 0)
    else .ok r.2.consumeBuffer

/-- What `_readContent` makes of what `_writeChunk` returned. -/
def endContent (sys : Sys) (r : Ret × Handler) : Ret × Handler :=
  match r.1 with
  | .reqError => r
  | _ =>
    if r.2.consumeBuffer.request.contentLength = 0 then
      match saveFile sys r.2.consumeBuffer with
      | (.throws f, h) => (.throws f, h)
      | (_, h) => (h.endBody.bodyRet, h.endBody)
    else (.reqContinue, r.2.consumeBuffer)

/-- The one call of `_writeChunk` in `// Read chunk` is given `askedChunk`, whether the data goes to a CGI or
to the temporary file. -/
theorem readChunk_eq (sys : Sys) (h : Handler) :
    readChunk sys h = h.endChunk (writeChunk sys h h.askedChunk) := by
  unfold readChunk askedChunk endChunk
  dsimp only
  split_ifs with hlong
  · generalize writeChunk sys h (toSize h.request.contentLength) = r
    obtain ⟨ret, h'⟩ := r
    cases ret <;> rfl
  · generalize writeChunk sys h h.context.buffer.length = r
    obtain ⟨ret, h'⟩ := r
    cases ret <;> rfl

/-- A round calls `_writeChunk` once, with the size `askedRound`, or ends before it. -/
theorem readRound_eq (sys : Sys) (h : Handler) :
    (∃ h₁, readEndOfChunk h >>= readChunkSize sys = .ok h₁ ∧ h₁.askedChunk = askedRound sys h ∧
        readRound sys h = h₁.endChunk (writeChunk sys h₁ (askedRound sys h))) ∨
      ∃ r, readEndOfChunk h >>= readChunkSize sys = .error r ∧ askedRound sys h = 0 ∧
        readRound sys h = .error r := by
  have hround : readRound sys h = (readEndOfChunk h >>= readChunkSize sys) >>= readChunk sys :=
    (bind_assoc (readEndOfChunk h) (readChunkSize sys) (readChunk sys)).symm
  rw [hround]
  cases hsize : readEndOfChunk h >>= readChunkSize sys with
  | error r => exact Or.inr ⟨r, rfl, by rw [askedRound, hsize], rfl⟩
  | ok h₁ =>
    have hasked : askedRound sys h = h₁.askedChunk := by rw [askedRound, hsize]
    rw [hasked]
    exact Or.inl ⟨h₁, rfl, rfl, (pure_bind h₁ (readChunk sys)).trans (readChunk_eq sys h₁)⟩

/-- The one call of `_writeChunk` in `_readContent` is given `asked`. -/
theorem readContent_eq (sys : Sys) {h : Handler} (hchunked : h.request.chunked = false) :
    readContent sys h =
      if toInt32 (h.request.contentLength - toInt32 h.context.buffer.length) ≥ 0 then
        endContent sys (writeChunk sys h (h.asked sys))
      else (h.bodyRet, h.refuseBody statusBadRequest) := by
  unfold asked readContent endContent
  rw [hchunked, if_neg Bool.false_ne_true]
  by_cases hfits : toInt32 (h.request.contentLength - toInt32 h.context.buffer.length) ≥ 0
  · rw [if_pos hfits, if_pos hfits, if_pos hfits]
    generalize writeChunk sys h h.context.buffer.length = r
    obtain ⟨ret, h'⟩ := r
    cases ret <;> rfl
  · rw [if_neg hfits, if_neg hfits]

/-! ## The calls of `send` -/

/-- What the calls of `send` were asked to pass on. -/
def sends (h : Handler) : Nat := (h.context.world.calls.map CgiCall.size).sum

/-- The calls of `send` from `h` to `h'` were asked to pass on `n` bytes. -/
structure Asks (h h' : Handler) (n : Nat) : Prop where
  cgiPath : h'.request.cgiPath = h.request.cgiPath
  sends : h'.sends = h.sends + n

theorem Asks.trans {h₁ h₂ h₃ : Handler} {m n : Nat} (h₁₂ : Asks h₁ h₂ m) (h₂₃ : Asks h₂ h₃ n) :
    Asks h₁ h₃ (m + n) where
  cgiPath := h₂₃.cgiPath.trans h₁₂.cgiPath
  sends := by rw [h₂₃.sends, h₁₂.sends, Nat.add_assoc]

theorem Asks.cgi {h h' : Handler} {n : Nat} (hasks : Asks h h' n)
    (hcgi : h.request.cgiPath.isSome = true) : h'.request.cgiPath.isSome = true := by
  rw [hasks.cgiPath, hcgi]

/-- What a round passes on: its calls of `send` ask for `n` bytes in all, whether the round goes on or
returns. -/
inductive RoundAsks (h : Handler) (n : Nat) : Round → Prop where
  | ok {h' : Handler} (hasks : Asks h h' n) : RoundAsks h n (.ok h')
  | error {r : Ret × Handler} (hasks : Asks h r.2 n) : RoundAsks h n (.error r)

section Asks

variable {sys : Sys} {h : Handler}

theorem asks_writeChunk (hcgi : h.request.cgiPath.isSome = true) (size : Nat) :
    Asks h (writeChunk sys h size).2 size := by
  obtain ⟨path, hpath⟩ := Option.isSome_iff_exists.mp hcgi
  unfold writeChunk
  rw [hpath]
  dsimp only
  unfold sendCGI
  dsimp only
  cases (if h.context.cgiSocket = -1 then Send.error else sys.cgiSend h.context.world.calls.length) with
  | error => exact ⟨rfl, by simp [sends, RequestContext.record, CgiCall.size]⟩
  | accepted n => exact ⟨rfl, by simp [sends, RequestContext.record, CgiCall.size]⟩

/-- A body for a CGI is saved: its socket is shut down. -/
theorem asks_saveFile (hcgi : h.request.cgiPath.isSome = true) :
    Asks h (match saveFile sys h with
      | (.throws f, h) => (Ret.throws f, h)
      | (_, h) => (h.endBody.bodyRet, h.endBody)).2 0 := by
  obtain ⟨path, hpath⟩ := Option.isSome_iff_exists.mp hcgi
  unfold saveFile
  rw [hpath]
  dsimp only
  split_ifs
  · exact ⟨rfl, by simp [sends, RequestContext.record, CgiCall.size, endBody, setState,
      RequestContext.setState, setStatusCode, RequestContext.setStatusCode]⟩
  · exact ⟨rfl, by simp [sends, RequestContext.record, CgiCall.size, setStatusCode,
      RequestContext.setStatusCode]⟩

theorem asks_readEndOfChunk : RoundAsks h 0 (readEndOfChunk h) := by
  unfold readEndOfChunk
  dsimp only
  split_ifs
  · cases BinaryBuffer.rfind h.context.buffer crlf 0 with
    | none => exact .error ⟨rfl, rfl⟩
    | some pos => exact .ok ⟨rfl, rfl⟩
  · exact .error ⟨rfl, rfl⟩
  · exact .error ⟨rfl, rfl⟩
  · exact .ok ⟨rfl, rfl⟩

theorem asks_readEndOfTransfer (hcgi : h.request.cgiPath.isSome = true) :
    Asks h (readEndOfTransfer sys h).2 0 := by
  unfold readEndOfTransfer
  split_ifs
  · have hclear : Asks h h.clearBuffer 0 := ⟨rfl, rfl⟩
    exact hclear.trans (asks_saveFile hcgi)
  · exact ⟨rfl, rfl⟩
  · exact ⟨rfl, rfl⟩

theorem asks_readChunkSize (hcgi : h.request.cgiPath.isSome = true) :
    RoundAsks h 0 (readChunkSize sys h) := by
  unfold readChunkSize
  split_ifs
  · cases BinaryBuffer.find h.context.buffer crlf with
    | none => exact .error ⟨rfl, rfl⟩
    | some pos =>
      dsimp only
      split_ifs
      · exact .error ⟨rfl, rfl⟩
      · exact .error ⟨rfl, rfl⟩
      · have hset : ∀ n, Asks h (h.setContentLength n) 0 := fun _ => ⟨rfl, rfl⟩
        have hasks : ∀ n, Asks h (readEndOfTransfer sys (h.setContentLength n)).2 0 := fun n =>
          (hset n).trans (asks_readEndOfTransfer hcgi)
        exact .error (hasks _)
      · exact .error ⟨rfl, rfl⟩
      · exact .ok ⟨rfl, rfl⟩
  · exact .ok ⟨rfl, rfl⟩

theorem asks_readChunk (hcgi : h.request.cgiPath.isSome = true) :
    RoundAsks h h.askedChunk (readChunk sys h) := by
  rw [readChunk_eq]
  have hasks := @asks_writeChunk sys h hcgi h.askedChunk
  generalize writeChunk sys h h.askedChunk = r at hasks ⊢
  obtain ⟨ret, h'⟩ := r
  unfold endChunk
  cases ret with
  | reqError => exact .error hasks
  | _ =>
    dsimp only
    split_ifs <;> exact .ok ⟨hasks.cgiPath, hasks.sends⟩

theorem Asks.round {h h₁ : Handler} {n : Nat} {x : Round} (hasks : Asks h h₁ 0)
    (hround : RoundAsks h₁ n x) : RoundAsks h n x := by
  rw [← Nat.zero_add n]
  cases hround with
  | ok hnext => exact .ok (hasks.trans hnext)
  | error hnext => exact .error (hasks.trans hnext)

theorem asks_readRound (hcgi : h.request.cgiPath.isSome = true) :
    RoundAsks h (askedRound sys h) (readRound sys h) := by
  have hend := @asks_readEndOfChunk h
  unfold askedRound
  cases hround : readEndOfChunk h with
  | error r =>
    rw [readRound_of_error hround]
    rw [hround] at hend
    exact hend
  | ok h₁ =>
    rw [readRound_of_ok hround]
    rw [hround] at hend
    obtain ⟨hended⟩ := hend
    have hsize := hended.round (@asks_readChunkSize sys h₁ (hended.cgi hcgi))
    have hbind : (Except.ok h₁ >>= readChunkSize sys : Round) = readChunkSize sys h₁ := rfl
    rw [hbind]
    cases hnext : readChunkSize sys h₁ with
    | error r =>
      rw [hnext] at hsize
      exact hsize
    | ok h₂ =>
      rw [hnext] at hsize
      obtain ⟨hsized⟩ := hsize
      have hlast : (Except.ok h₂ >>= readChunk sys : Round) = readChunk sys h₂ :=
        pure_bind h₂ (readChunk sys)
      rw [hlast]
      exact hsized.round (asks_readChunk (hsized.cgi hcgi))

theorem asks_readChunkedLoop (n : Nat) (hcgi : h.request.cgiPath.isSome = true) :
    Asks h (readChunkedLoop sys n h).2 (askedLoop sys n h) := by
  induction n generalizing h with
  | zero => exact ⟨rfl, rfl⟩
  | succ n ih =>
    rw [readChunkedLoop, askedLoop]
    by_cases hnil : h.context.buffer = []
    · rw [if_pos hnil, if_pos hnil]
      exact ⟨rfl, rfl⟩
    · rw [if_neg hnil, if_neg hnil]
      have hround := @asks_readRound sys h hcgi
      cases hnext : readRound sys h with
      | error r =>
        rw [hnext] at hround
        obtain _ | ⟨hasks⟩ := hround
        exact hasks
      | ok h₁ =>
        rw [hnext] at hround
        obtain ⟨hasks⟩ := hround
        exact hasks.trans (ih (hasks.cgi hcgi))

/-- **What is asked**: the calls of `send` that a reader makes were given the sizes that `asked` adds
up. -/
theorem asks_readBody (hcgi : h.request.cgiPath.isSome = true) :
    Asks h (readBody sys h).2 (h.asked sys) := by
  by_cases hchunked : h.request.chunked = true
  · unfold readBody asked
    rw [if_pos hchunked, if_pos hchunked]
    exact asks_readChunkedLoop _ hcgi
  · unfold readBody
    rw [if_neg hchunked, readContent_eq sys (Bool.eq_false_iff.mpr hchunked)]
    by_cases hfits : toInt32 (h.request.contentLength - toInt32 h.context.buffer.length) ≥ 0
    · rw [if_pos hfits]
      have hasks := @asks_writeChunk sys h hcgi (h.asked sys)
      generalize writeChunk sys h (h.asked sys) = r at hasks ⊢
      obtain ⟨ret, h'⟩ := r
      have hconsume : Asks h' h'.consumeBuffer 0 := ⟨rfl, rfl⟩
      have hconsumed := hasks.trans hconsume
      unfold endContent
      cases ret with
      | reqError => exact hasks
      | _ =>
        dsimp only
        split_ifs
        · exact hconsumed.trans (asks_saveFile (hconsumed.cgi hcgi))
        · exact hconsumed
    · have hnothing : h.asked sys = 0 := by
        unfold asked
        rw [if_neg hchunked, if_neg hfits]
      rw [if_neg hfits, hnothing]
      exact ⟨rfl, rfl⟩

end Asks

/-! ## Counters -/

/-- The counters of a chunked body: what was asked, and what is left of the chunk, is within the sum of
the sizes, and this within the limit. -/
structure CountsChunks (h : Handler) (total : Nat) : Prop where
  chunked : h.request.chunked = true
  size : -1 ≤ h.request.contentLength
  sum : total + max 0 h.request.contentLength ≤ h.request.contentTotalLength
  sum_le : h.request.contentTotalLength ≤ max 0 h.maxBodySize

/-- The counter of a body with a `Content-Length`: what was asked so far and what is missing are together
within the limit. -/
structure CountsContent (h : Handler) (total : Nat) : Prop where
  chunked : h.request.chunked = false
  rest : 0 ≤ h.request.contentLength
  sum_le : total + h.request.contentLength ≤ max 0 h.maxBodySize

/-- The number that the line at the front of the bytes stands for as a chunk size; 0 where no line ends. -/
def sizeLine (unread : Bytes) : Int :=
  match BinaryBuffer.find unread crlf with
  | none => 0
  | some pos => sToContentLength (BinaryBuffer.substr unread 0 pos) true

/-- What the counters of a chunked body say was passed on: the sizes so far, less what is missing of the
chunk that is being read. -/
def passed (h : Handler) : Int := h.request.contentTotalLength - max 0 h.request.contentLength

/-- The sum of the sizes cannot overflow in a call.  It is an `int32_t`, and a size within the limit is added
to a sum within the limit: below 2^30 that is enough.  Under a larger limit it depends on the sizes, and they
are in the unread bytes: wherever a size line may stand in them, what was passed on, what is unread and that
size together fit. -/
def SizesFit (h : Handler) : Prop :=
  h.maxBodySize < 2 ^ 30 ∨ ∀ unread ∈ h.context.buffer.tails, sizeLine unread ≤ h.maxBodySize →
    h.passed + h.context.buffer.length + sizeLine unread < 2 ^ 31

instance (h : Handler) : Decidable h.SizesFit := inferInstanceAs (Decidable (_ ∨ _))

/-- It goes on to fit when unread bytes are passed on or dropped. -/
theorem SizesFit.of_suffix {h h' : Handler} (hfits : h.SizesFit) (hmax : h'.maxBodySize = h.maxBodySize)
    (hbuffer : h'.context.buffer <:+ h.context.buffer)
    (hpassed : h'.passed + h'.context.buffer.length ≤ h.passed + h.context.buffer.length) : h'.SizesFit := by
  unfold SizesFit
  rw [hmax]
  refine hfits.imp_right fun hsizes unread hunread hle => ?_
  have hsuffix := ((List.mem_tails _ _).mp hunread).trans hbuffer
  have hfit := hsizes unread ((List.mem_tails _ _).mpr hsuffix) hle
  omega

/-- A size line at the front that is within the limit: the sum with it is a number of 32 bits. -/
theorem SizesFit.sum_lt {h : Handler} (hfits : h.SizesFit) (hsize : h.request.contentLength = -1)
    (hsum : h.request.contentTotalLength ≤ max 0 h.maxBodySize)
    (hle : sizeLine h.context.buffer ≤ h.maxBodySize) :
    h.request.contentTotalLength + sizeLine h.context.buffer < 2 ^ 31 := by
  rcases hfits with hlimit | hsizes
  · omega
  · have hfit := hsizes _ ((List.mem_tails _ _).mpr (List.suffix_refl _)) hle
    unfold passed at hfit
    rw [hsize] at hfit
    omega

/-- The counters leave room for all that was asked: the one of a body with a length, or the ones of a
chunked body. -/
def Counted (h : Handler) (total : Nat) : Prop := h.CountsChunks total ∨ h.CountsContent total

/-- What the counters say. -/
structure SameCounters (h h' : Handler) : Prop where
  chunked : h'.request.chunked = h.request.chunked
  contentLength : h'.request.contentLength = h.request.contentLength
  contentTotalLength : h'.request.contentTotalLength = h.request.contentTotalLength
  maxBodySize : h'.maxBodySize = h.maxBodySize

theorem CountsChunks.of_same {h h' : Handler} {total : Nat} (hcounts : h.CountsChunks total)
    (hsame : SameCounters h h') : h'.CountsChunks total := by
  obtain ⟨hchunked, hsize, hsum, hlimit⟩ := hcounts
  constructor
  · rw [hsame.chunked, hchunked]
  · rwa [hsame.contentLength]
  · rwa [hsame.contentLength, hsame.contentTotalLength]
  · rwa [hsame.contentTotalLength, hsame.maxBodySize]

theorem CountsContent.of_same {h h' : Handler} {total : Nat} (hcounts : h.CountsContent total)
    (hsame : SameCounters h h') : h'.CountsContent total := by
  obtain ⟨hchunked, hrest, hlimit⟩ := hcounts
  constructor
  · rw [hsame.chunked, hchunked]
  · rwa [hsame.contentLength]
  · rwa [hsame.contentLength, hsame.maxBodySize]

theorem Counted.of_same {h h' : Handler} {total : Nat} (hcounts : h.Counted total)
    (hsame : SameCounters h h') : h'.Counted total :=
  hcounts.imp (fun hchunks => hchunks.of_same hsame) fun hcontent => hcontent.of_same hsame

theorem Counted.le {h : Handler} {total : Nat} (hcounts : h.Counted total) :
    (total : Int) ≤ max 0 h.maxBodySize := by
  rcases hcounts with ⟨-, -, hsum, hlimit⟩ | ⟨-, hrest, hlimit⟩ <;> omega

/-- The counters after another chunk size, provided that with it the sum of the sizes is still within the
counter of the total. -/
theorem CountsChunks.of_counters {h : Handler} {total : Nat} (hcounts : h.CountsChunks total)
    (buffer : Bytes) {n : Int} (hsize : -1 ≤ n)
    (hsum : total + max 0 n ≤ h.request.contentTotalLength) :
    (h.withCounters buffer n h.request.contentTotalLength).CountsChunks total :=
  ⟨hcounts.chunked, hsize, hsum, hcounts.sum_le⟩

theorem SameCounters.trans {h₁ h₂ h₃ : Handler} (h₁₂ : SameCounters h₁ h₂)
    (h₂₃ : SameCounters h₂ h₃) : SameCounters h₁ h₃ where
  chunked := h₂₃.chunked.trans h₁₂.chunked
  contentLength := h₂₃.contentLength.trans h₁₂.contentLength
  contentTotalLength := h₂₃.contentTotalLength.trans h₁₂.contentTotalLength
  maxBodySize := h₂₃.maxBodySize.trans h₁₂.maxBodySize

/-- A change of the file system, of the status or of the flags. -/
theorem SameCounters.of_context (h : Handler) {ctx : RequestContext}
    (hrule : ctx.ruleBlock = h.context.ruleBlock) : SameCounters h { h with context := ctx } := by
  refine ⟨rfl, rfl, rfl, ?_⟩
  show (ctx.ruleBlock.getD {}).getMaxBodySize = (h.context.ruleBlock.getD {}).getMaxBodySize
  rw [hrule]

theorem sameCounters_publish (sys : Sys) (h : Handler) : SameCounters h (publish sys h) := by
  rw [publish_eq_publishWith, publishWith_eq]
  exact .of_context h rfl

theorem sameCounters_saveFile (sys : Sys) (h : Handler) : SameCounters h (saveFile sys h).2 := by
  unfold saveFile
  cases h.request.cgiPath with
  | none =>
    have hclose : SameCounters h h.closeFile := ⟨rfl, rfl, rfl, rfl⟩
    exact hclose.trans (sameCounters_publish sys h.closeFile)
  | some path =>
    dsimp only
    split_ifs
    · exact .of_context h rfl
    · exact .of_context h rfl

theorem sameCounters_writeChunk (sys : Sys) (h : Handler) (size : Nat) :
    SameCounters h (writeChunk sys h size).2 ∧
      (writeChunk sys h size).2.context.buffer = h.context.buffer := by
  unfold writeChunk
  cases h.request.cgiPath with
  | none =>
    dsimp only
    unfold writeFile
    split_ifs <;> exact ⟨⟨rfl, rfl, rfl, rfl⟩, rfl⟩
  | some path =>
    dsimp only
    unfold sendCGI
    dsimp only
    cases (if h.context.cgiSocket = -1 then Send.error
      else sys.cgiSend h.context.world.calls.length) <;> exact ⟨⟨rfl, rfl, rfl, rfl⟩, rfl⟩

/-! ## Spoiled bodies -/

/-- A `send` to the CGI failed. -/
def SendFailed (h : Handler) : Prop := ∃ call ∈ h.context.world.calls, call.tookNothing = true

/-- A chunked body is done with: it was refused or saved, or its time is over. -/
structure BodyDone (h : Handler) : Prop where
  chunked : h.request.chunked = true
  workIn : h.context.requestState.workIn = true
  cgiOut : h.context.requestState.cgiOut = true

/-- The counters of the body need not be right any more. -/
def Spoiled (h : Handler) : Prop := h.SendFailed ∨ h.BodyDone

instance (h : Handler) : Decidable h.SendFailed :=
  inferInstanceAs (Decidable (∃ call ∈ h.context.world.calls, call.tookNothing = true))

instance (h : Handler) : Decidable h.BodyDone :=
  decidable_of_iff (h.request.chunked = true ∧ h.context.requestState.workIn = true ∧
    h.context.requestState.cgiOut = true)
    ⟨fun ⟨hchunked, hworkIn, hcgiOut⟩ => ⟨hchunked, hworkIn, hcgiOut⟩, fun hdone =>
      ⟨hdone.chunked, hdone.workIn, hdone.cgiOut⟩⟩

instance (h : Handler) : Decidable h.Spoiled := inferInstanceAs (Decidable (_ ∨ _))

/-- A failed call of `_writeChunk` leaves a `send` that took nothing, unless nothing was asked. -/
theorem writeChunk_reqError {sys : Sys} {h h' : Handler} {size : Nat}
    (hwrite : writeChunk sys h size = (.reqError, h')) : size = 0 ∨ h'.SendFailed := by
  unfold writeChunk at hwrite
  cases hcgi : h.request.cgiPath with
  | none =>
    rw [hcgi] at hwrite
    cases hwrite
  | some path =>
    rw [hcgi] at hwrite
    dsimp only at hwrite
    unfold sendCGI at hwrite
    dsimp only at hwrite
    cases hsend : (if h.context.cgiSocket = -1 then Send.error
        else sys.cgiSend h.context.world.calls.length) with
    | accepted n =>
      rw [hsend] at hwrite
      cases hwrite
    | error =>
      rw [hsend] at hwrite
      cases hwrite
      rcases Nat.eq_zero_or_pos size with hzero | hpos
      · exact Or.inl hzero
      · refine Or.inr ⟨_, List.mem_append_right _ (List.mem_singleton.mpr rfl), ?_⟩
        simp [CgiCall.tookNothing, hpos]

/-- A chunk ends the call only when `_writeChunk` fails. -/
theorem readChunk_error {sys : Sys} {h : Handler} {r : Ret × Handler}
    (hread : readChunk sys h = .error r) : r.1 = .reqError := by
  rw [readChunk_eq] at hread
  generalize writeChunk sys h h.askedChunk = w at hread
  obtain ⟨ret, h'⟩ := w
  unfold endChunk at hread
  cases ret with
  | reqError =>
    cases hread
    rfl
  | _ =>
    dsimp only at hread
    split_ifs at hread

theorem Settled.ret_ne_reqError {h : Handler} {v : Verdict} {r : Ret × Handler}
    (hsettled : Settled h v r) : r.1 ≠ .reqError := by
  cases hsettled with
  | waits => exact fun heq => nomatch heq
  | refuses code hret =>
    rcases hret with rfl | rfl
    · exact fun heq => nomatch heq
    · show h.bodyRet ≠ .reqError
      unfold bodyRet
      cases h.request.cgiPath <;> exact fun heq => nomatch heq

/-! ## Rounds -/

/-- A chunked body in the middle of a call, with at most `n` unread bytes. -/
structure Going (limit : Int) (n : Nat) (h : Handler) (total : Nat) : Prop
    extends CountsChunks h total where
  maxBodySize : h.maxBodySize = limit
  buffer : h.context.buffer.length ≤ n
  fits : h.SizesFit

/-- What a call leaves: the counters are right, or the body is spoiled. -/
structure Leaves (limit : Int) (total : Nat) (h : Handler) : Prop where
  maxBodySize : h.maxBodySize = limit
  counted : h.Counted total ∨ h.Spoiled

/-- What a round leaves: the invariant where the loop goes on, and the bound where the call ends. -/
def Accounts (limit : Int) (n total : Nat) : Round → Prop
  | .ok h => Going limit n h total
  | .error r => Leaves limit total r.2

section Rounds

variable {sys : Sys} {limit : Int} {n total : Nat} {h : Handler}

theorem Going.leaves (hgoing : Going limit n h total) : Leaves limit total h :=
  ⟨hgoing.maxBodySize, Or.inl (Or.inl hgoing.toCountsChunks)⟩

theorem Going.refuse (hgoing : Going limit n h total) (code : Nat) :
    Leaves limit total (h.refuseBody code) :=
  ⟨hgoing.maxBodySize, Or.inl (Or.inl (hgoing.toCountsChunks.of_same (.of_context h rfl)))⟩

/-- A body that was refused with counters that are not right. -/
theorem leaves_refuseBody (hmax : h.maxBodySize = limit) (hchunked : h.request.chunked = true)
    (code : Nat) : Leaves limit total (h.refuseBody code) :=
  ⟨hmax, Or.inr (Or.inr ⟨hchunked, rfl, rfl⟩)⟩

/-- Unread bytes are dropped outside of a chunk.  Only data is counted, so that the bytes of a size line
leave the total as it is. -/
theorem Going.withCounters (hgoing : Going limit n h total) {buffer : Bytes} {m : Int}
    (hbuffer : buffer <:+ h.context.buffer) (hsize : -1 ≤ m) (hzero : m ≤ 0)
    (hopen : h.request.contentLength ≤ 0) :
    Going limit n (h.withCounters buffer m h.request.contentTotalLength) total := by
  have hsum := hgoing.sum
  refine ⟨hgoing.toCountsChunks.of_counters buffer hsize (by omega), hgoing.maxBodySize,
    hbuffer.length_le.trans hgoing.buffer, hgoing.fits.of_suffix rfl hbuffer ?_⟩
  have hlength := hbuffer.length_le
  show h.request.contentTotalLength - max 0 m + (buffer.length : Int) ≤
    h.request.contentTotalLength - max 0 h.request.contentLength + (h.context.buffer.length : Int)
  omega

theorem Going.total_le (hgoing : Going limit n h total) :
    (total : Int) ≤ h.request.contentTotalLength := by
  have hsum := hgoing.sum
  omega

theorem accounts_readEndOfChunk (hgoing : Going limit n h total) :
    Accounts limit n total (readEndOfChunk h) := by
  unfold readEndOfChunk
  dsimp only
  split_ifs with hend
  · cases BinaryBuffer.rfind h.context.buffer crlf 0 with
    | none => exact hgoing.refuse _
    | some pos =>
      have hbuffer : BinaryBuffer.erase h.context.buffer 0 (pos + 2) <:+ h.context.buffer := by
        rw [BinaryBuffer.erase_zero]
        exact List.drop_suffix _ _
      exact hgoing.withCounters (m := -1) hbuffer (by omega) (by omega) (by omega)
  · exact hgoing.refuse _
  · exact hgoing.leaves
  · exact hgoing

/-- The body was saved.  Nothing is asked for any more, so that the total is the final one. -/
theorem leaves_saveFile (hmax : h.maxBodySize = limit) (hcounted : h.Counted total) :
    Leaves limit total (match saveFile sys h with
      | (.throws f, h) => (Ret.throws f, h)
      | (_, h) => (h.endBody.bodyRet, h.endBody)).2 := by
  have hsaved := sameCounters_saveFile sys h
  generalize saveFile sys h = r at hsaved ⊢
  obtain ⟨ret, h'⟩ := r
  have hend : SameCounters h' h'.endBody := .of_context h' rfl
  have hended := hsaved.trans hend
  have hleaves : Leaves limit total h' :=
    ⟨hsaved.maxBodySize.trans hmax, Or.inl (hcounted.of_same hsaved)⟩
  have hleaves' : Leaves limit total h'.endBody :=
    ⟨hended.maxBodySize.trans hmax, Or.inl (hcounted.of_same hended)⟩
  cases ret with
  | throws fault => exact hleaves
  | _ => exact hleaves'

theorem leaves_readEndOfTransfer (hgoing : Going limit n h total) (hsize : h.request.contentLength = 0) :
    Leaves limit total (readEndOfTransfer sys h).2 := by
  unfold readEndOfTransfer
  split_ifs
  · have hclear : SameCounters h h.clearBuffer := .of_context h rfl
    have hcounts := hgoing.toCountsChunks.of_same hclear
    exact leaves_saveFile (hclear.maxBodySize.trans hgoing.maxBodySize) (Or.inl hcounts)
  · exact (hgoing.withCounters (m := -1) (List.suffix_refl _) (by omega) (by omega) (by omega)).leaves
  · exact hgoing.refuse _

/-- An accepted size is positive, and the sum does not overflow. -/
theorem Going.accept (hgoing : Going limit n h total) (hsize : h.request.contentLength = -1) {m : Int}
    (hline : sizeLine h.context.buffer = m) (hinvalid : m ≠ contentLengthInvalid) (hzero : m ≠ 0)
    (hle : -2 ≤ m) (hexceeds : ¬ h.ExceedsLimit m) (k : Nat) :
    Going limit n (h.withCounters (h.context.buffer.drop k) m
      (toInt32 (h.request.contentTotalLength + m))) total := by
  have htotal := hgoing.total_le
  have hmax := hgoing.maxBodySize
  have hupper := hgoing.sum_le
  have hbuffer := hgoing.buffer
  have hfits := hgoing.fits.sum_lt hsize hupper
  unfold ExceedsLimit contentLengthTooLarge at hexceeds
  unfold contentLengthInvalid at hinvalid
  rw [hline, hmax] at hfits
  rw [hmax] at hexceeds hupper
  have hsum : toInt32 (h.request.contentTotalLength + m) = h.request.contentTotalLength + m := by
    refine toInt32_of_range ?_ ?_
    · omega
    · unfold int32Max
      omega
  rw [hsum] at hexceeds ⊢
  have hdrop : (h.context.buffer.drop k).length ≤ h.context.buffer.length := by
    rw [List.length_drop]
    omega
  refine ⟨⟨hgoing.chunked, ?_, ?_, ?_⟩, hmax, ?_, hgoing.fits.of_suffix rfl (List.drop_suffix _ _) ?_⟩
  · show -1 ≤ m
    omega
  · show (total : Int) + max 0 m ≤ h.request.contentTotalLength + m
    omega
  · show h.request.contentTotalLength + m ≤ max 0 h.maxBodySize
    rw [hmax]
    omega
  · exact hdrop.trans hbuffer
  · show h.request.contentTotalLength + m - max 0 m + ((h.context.buffer.drop k).length : Int) ≤
      h.request.contentTotalLength - max 0 h.request.contentLength + (h.context.buffer.length : Int)
    omega

/-- A size line: a size that is accepted is added to the sum, which stays within the limit. -/
theorem accounts_readChunkSize (hgoing : Going limit n h total) :
    Accounts limit n total (readChunkSize sys h) ∧
      ∀ h', readChunkSize sys h = .ok h' → 0 ≤ h'.request.contentLength := by
  have hmax := hgoing.maxBodySize
  by_cases hsize : h.request.contentLength = -1
  · cases hfind : BinaryBuffer.find h.context.buffer crlf with
    | none =>
      rw [readChunkSize_of_none sys hsize hfind]
      exact ⟨hgoing.leaves, fun _ heq => nomatch heq⟩
    | some pos =>
      rw [readChunkSize_of_find sys hsize hfind rfl rfl]
      have hline : sizeLine h.context.buffer =
          sToContentLength (BinaryBuffer.substr h.context.buffer 0 pos) true := by rw [sizeLine, hfind]
      have hle := le_sToContentLength (BinaryBuffer.substr h.context.buffer 0 pos) true
      generalize sToContentLength (BinaryBuffer.substr h.context.buffer 0 pos) true = m at hle hline ⊢
      split_ifs with hempty hinvalid hzero hexceeds
      · exact ⟨hgoing.refuse _, fun _ heq => nomatch heq⟩
      · exact ⟨leaves_refuseBody (h := h.setContentLength m) hmax hgoing.chunked _, fun _ heq => nomatch heq⟩
      · subst hzero
        have hgoing' := hgoing.withCounters (m := 0) (List.suffix_refl _) (by omega) (by omega) (by omega)
        exact ⟨leaves_readEndOfTransfer hgoing' rfl, fun _ heq => nomatch heq⟩
      · rw [startChunk_eq]
        have hrefused : ∀ buffer k sum code, Leaves limit total
            ((h.withCounters buffer k sum).refuseBody code) := fun buffer k sum code =>
          leaves_refuseBody (h := h.withCounters buffer k sum) hmax hgoing.chunked code
        exact ⟨hrefused _ _ _ _, fun _ heq => nomatch heq⟩
      · rw [startChunk_eq]
        refine ⟨hgoing.accept hsize hline hinvalid hzero hle hexceeds (pos + 2), fun h' heq => ?_⟩
        cases heq
        show 0 ≤ m
        unfold ExceedsLimit contentLengthTooLarge at hexceeds
        unfold contentLengthInvalid at hinvalid
        omega
  · have hok : readChunkSize sys h = .ok h := if_neg hsize
    rw [hok]
    refine ⟨hgoing, fun h' heq => ?_⟩
    cases heq
    have hlow := hgoing.size
    omega

/-- A call of `_writeChunk` that fails.  What it was asked to write counts, whether it was written or not. -/
theorem leaves_of_reqError (hmax : h.maxBodySize = limit) (hcounted : h.Counted total) {h' : Handler}
    {size : Nat} (hwrite : writeChunk sys h size = (.reqError, h')) :
    Leaves limit (total + size) h' := by
  have hsame := (sameCounters_writeChunk sys h size).1
  rw [hwrite] at hsame
  refine ⟨hsame.maxBodySize.trans hmax, ?_⟩
  rcases writeChunk_reqError hwrite with rfl | hfailed
  · exact Or.inl (hcounted.of_same hsame)
  · exact Or.inr (Or.inl hfailed)

/-- A chunk: what is asked is unread, and left of the chunk. -/
theorem accounts_readChunk (hn : n < 2 ^ 31) (hgoing : Going limit n h total)
    (hpos : 0 ≤ h.request.contentLength) :
    Accounts limit n (total + h.askedChunk) (readChunk sys h) ∧
      ((total + h.askedChunk : Nat) : Int) ≤ max 0 limit := by
  have hmax := hgoing.maxBodySize
  have hsum := hgoing.sum
  have hupper := hgoing.sum_le
  have hbuffer := hgoing.buffer
  have hlimit : limit ≤ int32Max := by
    rw [← hmax]
    exact h.rule.maxBodySize_le
  unfold int32Max at hlimit
  rw [hmax] at hupper
  have hlength : toInt32 h.context.buffer.length = h.context.buffer.length := by
    refine toInt32_of_range ?_ ?_
    · omega
    · unfold int32Max
      omega
  have hsize : toSize h.request.contentLength = h.request.contentLength.toNat :=
    toSize_of_range hpos (by omega)
  have hfails : ∀ {h' : Handler} {size : Nat}, writeChunk sys h size = (.reqError, h') →
      Leaves limit (total + size) h' := leaves_of_reqError hmax (Or.inl hgoing.toCountsChunks)
  unfold readChunk askedChunk
  dsimp only
  rw [hlength, hsize]
  by_cases hlong : (h.context.buffer.length : Int) > h.request.contentLength
  · rw [if_pos hlong, if_pos hlong]
    refine ⟨?_, by omega⟩
    obtain ⟨hsame, hunread⟩ := sameCounters_writeChunk sys h h.request.contentLength.toNat
    cases hwrite : writeChunk sys h h.request.contentLength.toNat with
    | mk ret h' =>
      rw [hwrite] at hsame hunread
      have hnext : Going limit n
          ((h'.eraseBuffer (toSize h'.request.contentLength)).setContentLength 0)
            (total + h.request.contentLength.toNat) := by
        rw [hsame.contentLength, hsize]
        have hdrop : BinaryBuffer.erase h'.context.buffer 0 h.request.contentLength.toNat =
            h.context.buffer.drop h.request.contentLength.toNat := by rw [hunread, BinaryBuffer.erase_zero]
        refine ⟨⟨hsame.chunked.trans hgoing.chunked, ?_, ?_, ?_⟩, hsame.maxBodySize.trans hmax, ?_,
          hgoing.fits.of_suffix hsame.maxBodySize ?_ ?_⟩
        · show (-1 : Int) ≤ 0
          omega
        · show ((total + h.request.contentLength.toNat : Nat) : Int) + max 0 0 ≤
            h'.request.contentTotalLength
          rw [hsame.contentTotalLength]
          omega
        · show h'.request.contentTotalLength ≤ max 0 h'.maxBodySize
          rw [hsame.contentTotalLength, hsame.maxBodySize]
          exact hgoing.sum_le
        · show (BinaryBuffer.erase h'.context.buffer 0 h.request.contentLength.toNat).length ≤ n
          rw [hdrop, List.length_drop]
          omega
        · show BinaryBuffer.erase h'.context.buffer 0 h.request.contentLength.toNat <:+ h.context.buffer
          rw [hdrop]
          exact List.drop_suffix _ _
        · show h'.request.contentTotalLength - max 0 0 +
              ((BinaryBuffer.erase h'.context.buffer 0 h.request.contentLength.toNat).length : Int) ≤
            h.request.contentTotalLength - max 0 h.request.contentLength + (h.context.buffer.length : Int)
          rw [hdrop, hsame.contentTotalLength, List.length_drop]
          omega
      cases ret with
      | reqError => exact hfails hwrite
      | _ => exact hnext
  · rw [if_neg hlong, if_neg hlong]
    refine ⟨?_, by omega⟩
    obtain ⟨hsame, hunread⟩ := sameCounters_writeChunk sys h h.context.buffer.length
    cases hwrite : writeChunk sys h h.context.buffer.length with
    | mk ret h' =>
      rw [hwrite] at hsame hunread
      have hrest : toInt32 (h'.request.contentLength - h'.context.buffer.length) =
          h.request.contentLength - h.context.buffer.length := by
        rw [hsame.contentLength, hunread]
        refine toInt32_of_range ?_ ?_
        · omega
        · unfold int32Max
          omega
      have hnext : Going limit n h'.consumeBuffer (total + h.context.buffer.length) := by
        refine ⟨⟨hsame.chunked.trans hgoing.chunked, ?_, ?_, ?_⟩, hsame.maxBodySize.trans hmax, ?_,
          hgoing.fits.of_suffix hsame.maxBodySize (List.nil_suffix) ?_⟩
        · show -1 ≤ toInt32 (h'.request.contentLength - h'.context.buffer.length)
          rw [hrest]
          omega
        · show ((total + h.context.buffer.length : Nat) : Int) +
            max 0 (toInt32 (h'.request.contentLength - h'.context.buffer.length)) ≤
              h'.request.contentTotalLength
          rw [hrest, hsame.contentTotalLength]
          omega
        · show h'.request.contentTotalLength ≤ max 0 h'.maxBodySize
          rw [hsame.contentTotalLength, hsame.maxBodySize]
          exact hgoing.sum_le
        · exact Nat.zero_le n
        · show h'.request.contentTotalLength -
              max 0 (toInt32 (h'.request.contentLength - h'.context.buffer.length)) + ((0 : Nat) : Int) ≤
            h.request.contentTotalLength - max 0 h.request.contentLength + (h.context.buffer.length : Int)
          rw [hrest, hsame.contentTotalLength]
          omega
      cases ret with
      | reqError => exact hfails hwrite
      | _ => exact hnext

theorem accounts_readRound (hn : n < 2 ^ 31) (hgoing : Going limit n h total) :
    Accounts limit n (total + askedRound sys h) (readRound sys h) ∧
      ((total + askedRound sys h : Nat) : Int) ≤ max 0 limit := by
  have hle : ((total : Nat) : Int) ≤ max 0 limit := by
    rw [← hgoing.maxBodySize]
    exact Counted.le (Or.inl hgoing.toCountsChunks)
  have hend := accounts_readEndOfChunk hgoing
  unfold askedRound
  cases hround : readEndOfChunk h with
  | error r =>
    rw [readRound_of_error hround]
    rw [hround] at hend
    have hbind : (Except.error r >>= readChunkSize sys : Round) = .error r := rfl
    rw [hbind]
    exact ⟨hend, hle⟩
  | ok h₁ =>
    rw [readRound_of_ok hround]
    rw [hround] at hend
    obtain ⟨hsize, hpos⟩ := @accounts_readChunkSize sys _ _ _ _ hend
    have hbind : (Except.ok h₁ >>= readChunkSize sys : Round) = readChunkSize sys h₁ := rfl
    rw [hbind]
    cases hnext : readChunkSize sys h₁ with
    | error r =>
      rw [hnext] at hsize
      exact ⟨hsize, hle⟩
    | ok h₂ =>
      rw [hnext] at hsize
      have hchunk : (Except.ok h₂ >>= readChunk sys : Round) = readChunk sys h₂ :=
        pure_bind h₂ (readChunk sys)
      rw [hchunk]
      dsimp only
      exact accounts_readChunk hn hsize (hpos h₂ hnext)

/-- The loop, by induction on its rounds.  A round either ends the call within the limit or goes on with
less unread input and the same invariant. -/
theorem leaves_readChunkedLoop (hn : n < 2 ^ 31) (m : Nat)
    (hgoing : Going limit n h total) :
    Leaves limit (total + askedLoop sys m h) (readChunkedLoop sys m h).2 ∧
      ((total + askedLoop sys m h : Nat) : Int) ≤ max 0 limit := by
  have hstop : ∀ {h : Handler} {total : Nat}, Going limit n h total →
      Leaves limit total h ∧ (total : Int) ≤ max 0 limit := by
    intro h total hgoing
    refine ⟨hgoing.leaves, ?_⟩
    rw [← hgoing.maxBodySize]
    exact Counted.le (Or.inl hgoing.toCountsChunks)
  induction m generalizing h total with
  | zero => exact hstop hgoing
  | succ m ih =>
    rw [readChunkedLoop, askedLoop]
    by_cases hnil : h.context.buffer = []
    · rw [if_pos hnil, if_pos hnil]
      exact hstop hgoing
    · rw [if_neg hnil, if_neg hnil]
      obtain ⟨hround, hle⟩ := @accounts_readRound sys _ _ _ _ hn hgoing
      cases hnext : readRound sys h with
      | error r =>
        rw [hnext] at hround
        exact ⟨hround, hle⟩
      | ok h₁ =>
        rw [hnext] at hround
        dsimp only
        rw [← Nat.add_assoc]
        exact ih hround

end Rounds

/-! ## Calls -/

section Calls

variable {sys : Sys} {total : Nat} {h : Handler}

/-- A part of the body was passed on: it may have been the last. -/
theorem leaves_endContent {limit : Int} (hmax : h.maxBodySize = limit) (hcounted : h.Counted total) :
    Leaves limit total
      (if h.request.contentLength = 0 then
        match saveFile sys h with
        | (.throws f, h) => (.throws f, h)
        | (_, h) => (h.endBody.bodyRet, h.endBody)
      else (.reqContinue, h)).2 := by
  split_ifs
  · exact leaves_saveFile hmax hcounted
  · exact ⟨hmax, Or.inl hcounted⟩

/-- A body with a `Content-Length`: no more is asked than what is left of it. -/
theorem leaves_readContent (hcounts : h.CountsContent total)
    (hbuffer : h.context.buffer.length < 2 ^ 31) :
    Leaves h.maxBodySize (total + h.asked sys) (readContent sys h).2 ∧
      ((total + h.asked sys : Nat) : Int) ≤ max 0 h.maxBodySize := by
  have hrest := hcounts.rest
  have hupper := hcounts.sum_le
  have hmax : h.maxBodySize ≤ int32Max := h.rule.maxBodySize_le
  unfold int32Max at hmax
  have hlength : toInt32 h.context.buffer.length = h.context.buffer.length := by
    refine toInt32_of_range ?_ ?_
    · omega
    · unfold int32Max
      omega
  have hleft : toInt32 (h.request.contentLength - h.context.buffer.length) =
      h.request.contentLength - h.context.buffer.length := by
    refine toInt32_of_range ?_ ?_
    · omega
    · unfold int32Max
      omega
  have hchunked : ¬ h.request.chunked = true := by
    rw [hcounts.chunked]
    exact Bool.false_ne_true
  have hcounted : h.Counted total := Or.inr hcounts
  unfold asked readContent
  rw [if_neg hchunked, hlength, hleft]
  by_cases hfits : h.request.contentLength - h.context.buffer.length ≥ 0
  · rw [if_pos hfits, if_pos hfits]
    refine ⟨?_, by omega⟩
    obtain ⟨hsame, hunread⟩ := sameCounters_writeChunk sys h h.context.buffer.length
    cases hwrite : writeChunk sys h h.context.buffer.length with
    | mk ret h' =>
      rw [hwrite] at hsame hunread
      have hconsumed : h'.consumeBuffer.CountsContent (total + h.context.buffer.length) := by
        have hnow : h'.consumeBuffer.request.contentLength =
            h.request.contentLength - h.context.buffer.length := by
          show toInt32 (h'.request.contentLength - h'.context.buffer.length) = _
          rw [hsame.contentLength, hunread, hleft]
        refine ⟨hsame.chunked.trans hcounts.chunked, ?_, ?_⟩
        · rw [hnow]
          omega
        · rw [hnow]
          show ((total + h.context.buffer.length : Nat) : Int) + _ ≤ max 0 h'.maxBodySize
          rw [hsame.maxBodySize]
          omega
      cases ret with
      | reqError => exact leaves_of_reqError rfl hcounted hwrite
      | _ => exact leaves_endContent hsame.maxBodySize (Or.inr hconsumed)
  · rw [if_neg hfits, if_neg hfits]
    exact ⟨⟨rfl, Or.inl (hcounted.of_same (.of_context h rfl))⟩, hcounted.le⟩

/-- **The counters of a call.**  When the counters are right before a call of a reader, what it asks is
within the limit, and its counters say so afterwards.  Chunked and plain bodies have an account each. -/
theorem leaves_readBody (hcounted : h.Counted total) (hbuffer : h.context.buffer.length < 2 ^ 31)
    (hfits : h.request.chunked = true → h.SizesFit) :
    Leaves h.maxBodySize (total + asked sys h) (readBody sys h).2 ∧
      ((total + asked sys h : Nat) : Int) ≤ max 0 h.maxBodySize := by
  unfold readBody
  rcases hcounted with hchunks | hcontent
  · have hgoing : Going h.maxBodySize h.context.buffer.length h total :=
      ⟨hchunks, rfl, Nat.le_refl _, hfits hchunks.chunked⟩
    have hasked : asked sys h = askedLoop sys h.context.buffer.length h := if_pos hchunks.chunked
    rw [if_pos hchunks.chunked, hasked]
    exact leaves_readChunkedLoop hbuffer h.context.buffer.length hgoing
  · have hchunked : ¬ h.request.chunked = true := by
      rw [hcontent.chunked]
      exact Bool.false_ne_true
    rw [if_neg hchunked]
    exact leaves_readContent hcontent hbuffer

/-- A call that keeps away from its sink asks for nothing. -/
theorem asked_of_verdict (hsink : h.bodyVerdict ≠ .accepts) : h.asked sys = 0 := by
  unfold asked
  by_cases hchunked : h.request.chunked = true
  · rw [if_pos hchunked]
    cases hlength : h.context.buffer.length with
    | zero => rfl
    | succ m =>
      have hne : h.context.buffer ≠ [] := by
        rintro hnil
        rw [hnil] at hlength
        cases hlength
      obtain ⟨r, hr, hsettled⟩ := settled_readRound sys hchunked hne hsink
      -- the round ends before its chunk: `// Read chunk` has no error but `REQ_ERROR`
      have hround : askedRound sys h = 0 := by
        rcases readRound_eq sys h with ⟨h₁, -, hasked, heq⟩ | ⟨-, -, hnothing, -⟩
        · have herror : readChunk sys h₁ = .error r := by
            rw [readChunk_eq, hasked, ← heq, hr]
          exact absurd (readChunk_error herror) hsettled.ret_ne_reqError
        · exact hnothing
      rw [askedLoop, if_neg hne, hr, hround, Nat.zero_add]
  · rw [if_neg hchunked]
    have hfits : ¬ toInt32 (h.request.contentLength - toInt32 h.context.buffer.length) ≥ 0 := by
      intro hfits
      refine hsink ?_
      unfold bodyVerdict
      dsimp only
      rw [if_neg hchunked, if_pos hfits]
    exact if_neg hfits

/-- Such a call leaves the body as spoiled as it was. -/
theorem Spoiled.readBody (hspoiled : h.Spoiled) (hsink : h.bodyVerdict ≠ .accepts) :
    (readBody sys h).2.Spoiled ∧ (readBody sys h).2.maxBodySize = h.maxBodySize := by
  have hsettled := settled_readBody sys hsink
  generalize Handler.readBody sys h = r at hsettled ⊢
  generalize h.bodyVerdict = v at hsettled hsink
  cases hsettled with
  | waits =>
    exact ⟨hspoiled.imp id fun hdone => ⟨hdone.chunked, hdone.workIn, hdone.cgiOut⟩, rfl⟩
  | refuses code hret buffer n m =>
    exact ⟨hspoiled.imp id fun hdone => ⟨hdone.chunked, rfl, rfl⟩, rfl⟩

end Calls

/-- What keeps a call of a body reader within the limit: the lengths do not overflow, and after the
body is done with, or after a `send` that failed, it does not come to its sink. -/
def KeepsLimit (h : Handler) : Prop :=
  h.context.buffer.length < 2 ^ 31 ∧ (h.request.chunked = true → h.SizesFit) ∧
    (h.Spoiled → h.bodyVerdict ≠ .accepts)

instance (h : Handler) : Decidable h.KeepsLimit := inferInstanceAs (Decidable (_ ∧ _ ∧ _))

/-- **A call that keeps the limit.**  With right counters this is the account of the call; with spoiled ones
the condition keeps the reader away from its sink, and nothing is asked. -/
theorem leaves_of_keepsLimit (sys : Sys) {h : Handler} {total : Nat}
    (hcounted : h.Counted total ∨ h.Spoiled) (htotal : (total : Int) ≤ max 0 h.maxBodySize)
    (hkeeps : h.KeepsLimit) :
    Leaves h.maxBodySize (total + h.asked sys) (readBody sys h).2 ∧
      ((total + h.asked sys : Nat) : Int) ≤ max 0 h.maxBodySize := by
  obtain ⟨hbuffer, hfits, hsink⟩ := hkeeps
  by_cases hspoiled : h.Spoiled
  · obtain ⟨hspoiled', hmax⟩ := @Spoiled.readBody sys h hspoiled (hsink hspoiled)
    rw [asked_of_verdict (hsink hspoiled)]
    exact ⟨⟨hmax, Or.inr hspoiled'⟩, htotal⟩
  · exact leaves_readBody (hcounted.resolve_right hspoiled) hbuffer hfits

/-! ## The start of a body -/

/-- The counters that `_checkHeaders` sets leave room for nothing asked. -/
theorem Checked.counted {h h₁ : Handler} (hchecked : Checked h (.reqContinue, h₁))
    (hchunked : h.request.chunked = false) (hsum : h.request.contentTotalLength = 0) :
    h₁.Counted 0 := by
  cases hchecked with
  | chunked =>
    refine Or.inl ⟨rfl, Int.le_refl _, ?_, ?_⟩
    · show (0 : Int) + max 0 (-1) ≤ h.request.contentTotalLength
      omega
    · show h.request.contentTotalLength ≤ max 0 h.setChunked.maxBodySize
      omega
  | @content n hpos hmax =>
    refine Or.inr ⟨hchunked, Int.le_of_lt hpos, ?_⟩
    show (0 : Int) + n ≤ max 0 h.maxBodySize
    omega

theorem sameCounters_openCGI (sys : Sys) (h : Handler) : SameCounters h (openCGI sys h) := by
  rcases openCGI_cases sys h with heq | ⟨pair, heq⟩ | ⟨pair, pid, heq⟩ <;> rw [heq]
  · exact .of_context h rfl
  · exact .of_context h rfl
  · exact .of_context h rfl

theorem Uploads.sameCounters {sys : Sys} {h h' : Handler} (huploads : Uploads sys h h') :
    SameCounters h h' := by
  cases huploads <;> exact ⟨rfl, rfl, rfl, rfl⟩

/-- **The start of a body**: the counters are right, or the headers were refused, and then no reader is
called for this request. -/
theorem counted_processing (sys : Sys) {kind : RequestKind} {ctx : RequestContext} {h : Handler}
    (hcreate : createRequest kind ctx = .ok h) (hkind : kind = .post ∨ kind = .put) :
    (h.processing sys).Counted 0 ∨
      (h.processing sys).context.response.statusCode ≠ statusNone ∧
        (h.processing sys).context.cgiSocket = ctx.cgiSocket := by
  obtain ⟨chopedTarget, -, rfl⟩ := createRequest_ok hcreate
  have hstarts := startsBody_processing sys (h := ⟨ctx.setState kind.initState, {
    kind := kind
    path := localPath ctx.rule chopedTarget
    cgiPath := ctx.rule.findCGI (localPath ctx.rule chopedTarget).extension }⟩) hkind
  generalize processing sys _ = h' at hstarts ⊢
  cases hstarts with
  | refused n hcode f => exact Or.inr ⟨hcode, rfl⟩
  | @cgi h₁ hpost hcgi hchecked =>
    have hset : SameCounters h₁ (h₁.setState RequestState.setWorkInComplete) := .of_context h₁ rfl
    exact Or.inl ((hchecked.counted rfl rfl).of_same (hset.trans (sameCounters_openCGI sys _)))
  | @upload h₁ _ f hkind hchecked huploads =>
    have hset : SameCounters h₁ (h₁.setState f) := .of_context h₁ rfl
    exact Or.inl ((hchecked.counted rfl rfl).of_same (hset.trans huploads.sameCounters))

end Handler

namespace Client

/-! ## Runs -/

/-- The length of the data that a step asks `_writeChunk` to pass on. -/
def asked (c : Client) (e : Event) : Nat :=
  match c.readerCall e with
  | none => 0
  | some (sys, h) => h.asked sys

/-- The length of the data that a run asks `_writeChunk` to pass on. -/
def askedTotal (c : Client) (es : List Event) : Nat :=
  Transition.record step (fun c e total => total + c.asked e) c es 0

/-- The limit of the location; without a location there is no body. -/
def maxBodySize (c : Client) : Int := c.context.rule.getMaxBodySize

/-- The reader that the step calls, if any, keeps within the limit. -/
def KeepsLimit (c : Client) (e : Event) : Prop := ∀ x ∈ c.readerCall e, x.2.KeepsLimit

instance (c : Client) (e : Event) : Decidable (c.KeepsLimit e) :=
  inferInstanceAs (Decidable (∀ x ∈ c.readerCall e, x.2.KeepsLimit))

/-- A request with a body: its counters leave room for what was asked, or need not be right, or no
reader will be called. -/
def HasRoom (c : Client) (total : Nat) : Prop :=
  ∀ r, c.request = some r → r.kind = .post ∨ r.kind = .put →
    (Handler.Counted ⟨c.context, r⟩ total ∨ Handler.Spoiled ⟨c.context, r⟩) ∨
      c.context.cgiSocket = -1 ∧ c.context.requestState.workIn = true

theorem Idles.maxBodySize {c c' : Client} (h : Idles c c') : c'.maxBodySize = c.maxBodySize := by
  obtain ⟨f, rfl⟩ := h.fields
  rfl

theorem Idles.sameCounters {c c' : Client} (h : Idles c c') {r r' : ARequest}
    (hcore : r'.core = r.core) : Handler.SameCounters ⟨c.context, r⟩ ⟨c'.context, r'⟩ where
  chunked := show r'.core.chunked = r.core.chunked by rw [hcore]
  contentLength := show r'.core.contentLength = r.core.contentLength by rw [hcore]
  contentTotalLength := show r'.core.contentTotalLength = r.core.contentTotalLength by rw [hcore]
  maxBodySize := h.maxBodySize

theorem Idles.spoiled {c c' : Client} (h : Idles c c') {r r' : ARequest} (hcore : r'.core = r.core)
    (hspoiled : Handler.Spoiled ⟨c.context, r⟩) : Handler.Spoiled ⟨c'.context, r'⟩ := by
  rcases hspoiled with ⟨call, hcall, hnothing⟩ | ⟨hchunked, hworkIn, hcgiOut⟩
  · obtain ⟨calls, hcalls, -⟩ := h.sends
    refine Or.inl ⟨call, ?_, hnothing⟩
    show call ∈ c'.context.world.calls
    rw [hcalls]
    exact List.mem_append_left _ hcall
  · refine Or.inr ⟨?_, h.flags.workIn hworkIn, h.flags.cgiOut hcgiOut⟩
    exact (congrArg ARequest.chunked hcore).trans hchunked

theorem HasRoom.idles {c c' : Client} {total : Nat} (hroom : c.HasRoom total) (h : Idles c c') :
    c'.HasRoom total := by
  intro r' hr' hkind
  obtain ⟨r, hr, hcore⟩ := h.exists_request hr'
  have hkind' : r'.core.kind = r.core.kind := by rw [hcore]
  have hsame : r'.kind = r.kind := hkind'
  rw [hsame] at hkind
  rcases hroom r hr hkind with (hcounted | hspoiled) | ⟨hsocket, hworkIn⟩
  · exact Or.inl (Or.inl (hcounted.of_same (h.sameCounters hcore)))
  · exact Or.inl (Or.inr (h.spoiled hcore hspoiled))
  · exact Or.inr ⟨h.cgiSocket.trans hsocket, h.flags.workIn hworkIn⟩

theorem HasRoom.setFs {c : Client} {total : Nat} (hroom : c.HasRoom total) (fs : FileSystem) :
    ({ c with context := c.context.setFs fs } : Client).HasRoom total := by
  intro r hr hkind
  rcases hroom r hr hkind with (hcounted | hfailed | hdone) | hshut
  · exact Or.inl (Or.inl (hcounted.of_same (.of_context _ rfl)))
  · exact Or.inl (Or.inr (Or.inl hfailed))
  · exact Or.inl (Or.inr (Or.inr ⟨hdone.chunked, hdone.workIn, hdone.cgiOut⟩))
  · exact Or.inr hshut

/-- What was asked so far, in a reachable state.  Before there is a request object nothing was, and from
then on the counters of the object bound it. -/
structure Limited (c : Client) (total : Nat) : Prop where
  total_le : (total : Int) ≤ max 0 c.maxBodySize
  unasked : c.request = none → total = 0
  room : c.closed = true ∨ c.HasRoom total

theorem asked_of_none {c : Client} {e : Event} (hcall : c.readerCall e = none) : c.asked e = 0 := by
  unfold asked
  rw [hcall]

/-- A call of a body reader: it keeps the account. -/
theorem limited_readBody {c : Client} {sys : Sys} {h : Handler} {total : Nat}
    (hkind : h.request.kind = .post ∨ h.request.kind = .put)
    (hready : h.context.requestState.workIn = false ∨ h.context.cgiSocket ≠ -1)
    (hrequest : c.request = some h.request) (hcontext : c.context = h.context)
    (htotal : (total : Int) ≤ max 0 c.maxBodySize) (hroom : c.HasRoom total) (hkeeps : h.KeepsLimit) :
    ((total + h.asked sys : Nat) : Int) ≤
        max 0 (c.withHandler (Handler.readBody sys h).2).maxBodySize ∧
      (c.withHandler (Handler.readBody sys h).2).HasRoom (total + h.asked sys) := by
  have hhandler : (⟨c.context, h.request⟩ : Handler) = h := by rw [hcontext]
  have hmax : c.maxBodySize = h.maxBodySize := by
    rw [← hhandler]
    rfl
  have hcounted : h.Counted total ∨ h.Spoiled := by
    have hhas := hroom h.request hrequest hkind
    rw [hhandler, hcontext] at hhas
    refine hhas.resolve_right fun ⟨hsocket, hworkIn⟩ => ?_
    rcases hready with hfalse | hne
    · rw [hworkIn] at hfalse
      cases hfalse
    · exact hne hsocket
  rw [hmax] at htotal
  obtain ⟨⟨hlimit, hleaves⟩, hle⟩ := Handler.leaves_of_keepsLimit sys hcounted htotal hkeeps
  refine ⟨?_, fun r hr _ => Or.inl ?_⟩
  · rw [← hlimit] at hle
    exact hle
  · obtain rfl : (Handler.readBody sys h).2.request = r := Option.some.inj hr
    exact hleaves

/-- **One step** keeps the account: what it asks is added to what was asked, and stays within the limit. -/
theorem limited_step {c : Client} (hphase : Phase c) {e : Event} {total : Nat}
    (hlimited : c.Limited total) (hkeeps : c.KeepsLimit e) :
    (c.step e).Limited (total + c.asked e) := by
  by_cases hclosed : c.closed = true
  · have hstep : c.step e = c := if_pos hclosed
    rw [hstep, asked_of_none (readerCall_of_closed hclosed e)]
    exact hlimited
  · obtain ⟨htotal, hunasked, hroom⟩ := hlimited
    replace hroom := hroom.resolve_left hclosed
    have heffect := effect_step hphase e
    generalize c.step e = c' at heffect ⊢
    cases heffect with
    | environment he =>
      subst he
      exact ⟨htotal, hunasked, Or.inr (hroom.setFs _)⟩
    | headOnly hhead hcall hrequest =>
      rw [asked_of_none hcall, hunasked hhead.request]
      refine ⟨by omega, fun _ => rfl, Or.inr fun r hr => ?_⟩
      rw [hrequest] at hr
      cases hr
    | @request c₁ c₂ _ hcreated hread hidles hstatus hanswered =>
      -- the request object that is there, or the one that was created
      have hstart : (total : Int) ≤ max 0 c₁.maxBodySize ∧ (c₁.request = none → total = 0) ∧
          (c₁.HasRoom total ∨
            c.request = none ∧ c.readerCall e = none ∧ c₁.context.cgiSocket = -1) := by
        cases hcreated with
        | same => exact ⟨htotal, hunasked, Or.inl hroom⟩
        | @created sys kind ctx h hhead hworld hserver hlocation hsocket hcreate hpending =>
          have hzero : total = 0 := hunasked hhead.request
          subst hzero
          refine ⟨by omega, fun _ => rfl, ?_⟩
          have hcounted := Handler.counted_processing sys hcreate
          by_cases hrefused : (h.processing sys).context.response.statusCode ≠ statusNone ∧
              (h.processing sys).context.cgiSocket = ctx.cgiSocket
          · refine Or.inr ⟨hhead.request, ?_, ?_⟩
            · by_contra hcalled
              exact hrefused.1 (hpending hcalled)
            · exact hrefused.2.trans (hsocket.trans hhead.cgiSocket)
          · refine Or.inl fun r hr hkind => Or.inl (Or.inl ?_)
            obtain rfl : (h.processing sys).request = r := Option.some.inj hr
            rw [(Handler.started_processing sys hcreate).kind_eq] at hkind
            exact (hcounted hkind).resolve_right hrefused
      obtain ⟨htotal₁, hunasked₁, hroom₁⟩ := hstart
      cases hread with
      | same hcall =>
        rw [asked_of_none hcall]
        refine ⟨?_, ?_, ?_⟩
        · rw [hidles.maxBodySize]
          exact htotal₁
        · exact fun hnone => hunasked₁ (hidles.request_none_iff.mp hnone)
        · rcases hroom₁ with hroom₁ | ⟨hnone, -, hsocket⟩
          · exact Or.inr (hroom₁.idles hidles)
          · by_cases hsome : c'.request.isSome = true
            · refine (hanswered hnone hsome hcall).imp_right fun hworkIn r _ _ => Or.inr ⟨?_, hworkIn⟩
              exact hidles.cgiSocket.trans hsocket
            · refine Or.inr fun r hr => ?_
              rw [hr] at hsome
              exact absurd rfl hsome
      | @called sys h c₃ hcall hkind hready hcalled hrequest hcontext =>
        have hroom₃ : c₃.HasRoom total := by
          refine (hroom₁.resolve_right fun ⟨_, hnone, _⟩ => ?_).idles hcalled
          rw [hcall] at hnone
          cases hnone
        have htotal₃ : (total : Int) ≤ max 0 c₃.maxBodySize := by
          rw [hcalled.maxBodySize]
          exact htotal₁
        have hasked : c.asked e = h.asked sys := by
          unfold asked
          rw [hcall]
        obtain ⟨htotal', hroom'⟩ :=
          limited_readBody hkind hready hrequest hcontext htotal₃ hroom₃ (hkeeps _ hcall)
        rw [hasked]
        refine ⟨?_, ?_, Or.inr (hroom'.idles hidles)⟩
        · rw [hidles.maxBodySize]
          exact htotal'
        · exact fun hnone => nomatch hidles.request_none_iff.mp hnone

/-- **The limit of a body.**  In a run whose reader calls keep within the limit, no more is asked than
the limit. -/
theorem askedTotal_le (server : Server) (fs : FileSystem) (connectSocket fd : Fd) (now : Int)
    (es : List Event)
    (hkeeps : Transition.Along step KeepsLimit (init server fs connectSocket fd now) es) :
    ((init server fs connectSocket fd now).askedTotal es : Int) ≤
      max 0 ((init server fs connectSocket fd now).run es).maxBodySize := by
  have hinit : (init server fs connectSocket fd now).Limited 0 :=
    ⟨by omega, fun _ => rfl, Or.inr fun r hr => nomatch hr⟩
  have hphase : Phase (init server fs connectSocket fd now) :=
    Or.inr (Or.inl (awaitsHead_init server fs connectSocket fd now))
  have hrun := @Transition.run_record _ _ step KeepsLimit _ (fun c e total => total + c.asked e)
    (fun c total => Phase c ∧ c.Limited total)
    (fun c e total h hc => ⟨(phase_step h.1 e).1, limited_step h.1 h.2 hc⟩) es _ 0 ⟨hphase, hinit⟩
    hkeeps
  exact hrun.2.total_le

set_option maxRecDepth 10000 in
/-- A chunk of a byte is within a limit of 100. -/
theorem askedTotal_le_chunk :
    let es : List Event :=
      [.clientIn (.receiving (chunkedPost ++ bytes "1\r\na\r\n0\r\n\r\n")), .cgiOut oneByte]
    scriptClient.askedTotal es = 1 ∧
      (scriptClient.askedTotal es : Int) ≤ max 0 (scriptClient.run es).maxBodySize :=
  ⟨by decide, askedTotal_le _ _ 3 4 0 _ ⟨by decide, by decide, trivial⟩⟩

set_option maxRecDepth 10000 in
/-- The chunk size `zz` is refused with 400.  The next call of the reader takes the `-2` that stands for
it as the size of a chunk. -/
theorem not_bodyLimit :
    let es : List Event :=
      [.clientIn (.receiving (chunkedPost ++ bytes "zz\r\n")), .cgiOut oneByte, .cgiOut oneByte]
    scriptClient.askedTotal es = 2 ^ 64 - 2 ∧ (scriptClient.run es).maxBodySize = 100 ∧
      ¬ (scriptClient.askedTotal es : Int) ≤ (scriptClient.run es).maxBodySize := by
  decide

end Client
end Webserv
