import Webserv.Requests

/-!
# What the body readers can change

The two readers hand the unread bytes to their sink, count them off, and end the body.  Every step of them
changes a few fields only, and the rest of the handler stays as it is.

* `ReaderRule`: what every operation of the readers respects, the readers respect.
* `Verdict`, `settled_readBody`: what a call comes to before it touches its sink.
* `reads_readBody`: the fields that a reader may change, and what it does to the flags and on the socket of
  the CGI.
* `ended_readBody`: a reader answers `REQ_DONE` only when the body is done with.

## Why a rule

Much is asked about the readers: which fields they change, which answers they give, what they do to the
disk, whether a response stays legible.  Each time the proof would go through the chunked loop, its rounds,
the size lines and the end of the body.  `ReaderRule` does this once.  It takes a property of the handler
between the steps and a property of the answers, asks how each of the basic operations treats them, writing,
sending, saving, refusing, counting, and gives the two properties for the reader.  What is left for each
question are a few small cases, in the words of that question.

## Why a verdict

Before a reader writes anything it has parsed as much of the framing as there is, and this part depends on
the bytes only.  `bodyVerdict` computes from the state whether the next call waits, refuses with a status,
or goes on to its sink.  Conditions on a run can ask for the verdict of the state before a step, without a
look at what the step does.
-/

namespace Webserv

/-! ## Flags -/

/-- Every flag that is set stays set.  The readers unset none, in contrast to the timeouts. -/
structure RequestState.Le (x y : RequestState) : Prop where
  requestLine : x.requestLine = true → y.requestLine = true
  headers : x.headers = true → y.headers = true
  read : x.read = true → y.read = true
  workIn : x.workIn = true → y.workIn = true
  workOut : x.workOut = true → y.workOut = true
  cgiIn : x.cgiIn = true → y.cgiIn = true
  cgiOut : x.cgiOut = true → y.cgiOut = true
  canWrite : x.canWrite = true → y.canWrite = true
  cgiHeaders : x.cgiHeaders = true → y.cgiHeaders = true

theorem RequestState.Le.refl (x : RequestState) : x.Le x :=
  ⟨id, id, id, id, id, id, id, id, id⟩

theorem RequestState.le_setWorkComplete (x : RequestState) : x.Le x.setWorkComplete := by
  constructor <;> simp +contextual [setWorkComplete]

namespace Handler

/-! ## Rounds -/

theorem readRound_of_error {sys : Sys} {h : Handler} {r : Ret × Handler}
    (hr : readEndOfChunk h = .error r) : readRound sys h = .error r := by
  rw [readRound, hr]
  rfl

theorem readRound_of_ok {sys : Sys} {h h₁ : Handler} (hr : readEndOfChunk h = .ok h₁) :
    readRound sys h = (readChunkSize sys h₁ >>= readChunk sys) := by
  rw [readRound, hr]
  exact pure_bind h₁ fun h => readChunkSize sys h >>= readChunk sys

/-- The size line was read: its number is the size of the next chunk. -/
def startChunk (h : Handler) (pos : Nat) (n : Int) : Handler :=
  let h := (h.setContentLength n).eraseBuffer (pos + 2)
  { h with request := { h.request with
    contentTotalLength := toInt32 (h.request.contentTotalLength + n) } }

/-- A chunk size that the reader refuses: too large for a number, or over the limit alone or with those
before it. -/
def ExceedsLimit (h : Handler) (n : Int) : Prop :=
  n = contentLengthTooLarge ∨ n > h.maxBodySize ∨
    toInt32 (h.request.contentTotalLength + n) > h.maxBodySize

instance (h : Handler) (n : Int) : Decidable (h.ExceedsLimit n) :=
  inferInstanceAs (Decidable (_ ∨ _))

theorem readChunkSize_of_none (sys : Sys) {h : Handler} (hsize : h.request.contentLength = -1)
    (hfind : BinaryBuffer.find h.context.buffer crlf = none) :
    readChunkSize sys h = .error (.reqContinue, h) := by
  unfold readChunkSize
  rw [if_pos hsize, hfind]
  rfl

/-- What is done with a complete size line. -/
theorem readChunkSize_of_find (sys : Sys) {h : Handler} {pos : Nat} {line : Bytes} {n : Int}
    (hsize : h.request.contentLength = -1)
    (hfind : BinaryBuffer.find h.context.buffer crlf = some pos)
    (hline : BinaryBuffer.substr h.context.buffer 0 pos = line)
    (hn : sToContentLength line true = n) :
    readChunkSize sys h =
      if line = [] then .error (h.bodyRet, h.refuseBody statusBadRequest)
      else if n = contentLengthInvalid then
        .error (h.bodyRet, (h.setContentLength n).refuseBody statusBadRequest)
      else if n = 0 then .error (readEndOfTransfer sys (h.setContentLength n))
      else if h.ExceedsLimit n then
        .error (h.bodyRet, (h.startChunk pos n).refuseBody statusPayloadTooLarge)
      else .ok (h.startChunk pos n) := by
  unfold readChunkSize
  rw [if_pos hsize, hfind]
  dsimp only
  rw [hline, hn]
  rfl

/-! ## What a call comes to -/

/-- What the next call of a body reader comes to, before it touches its sink: it waits for more, it
refuses the body with a status, or it goes on to write, to send or to save. -/
inductive Verdict where
  | waits
  | refuses (code : Nat)
  | accepts
  deriving DecidableEq

/-- The verdict on a buffer that begins with the size line of a chunk. -/
def sizeVerdict (h : Handler) (buffer : Bytes) : Verdict :=
  match BinaryBuffer.find buffer crlf with
  | none => .waits
  | some pos =>
    let line := BinaryBuffer.substr buffer 0 pos
    let n := sToContentLength line true
    if line = [] ∨ n = contentLengthInvalid then .refuses statusBadRequest
    else if n = 0 then
      if isTerminator buffer 0 then .accepts
      else if (List.range' 1 4).any (isTerminator buffer) then .waits
      else .refuses statusBadRequest
    else if h.ExceedsLimit n then .refuses statusPayloadTooLarge
    else .accepts

/-- The verdict on the unread bytes: what the next call comes to, computed without calling it. -/
def bodyVerdict (h : Handler) : Verdict :=
  let buffer := h.context.buffer
  if h.request.chunked then
    if buffer = [] then .waits
    else if h.request.contentLength = 0 then
      if crlf.isPrefixOf buffer then h.sizeVerdict (buffer.drop 2)
      else if buffer = [cr] then .waits
      else .refuses statusBadRequest
    else if h.request.contentLength = -1 then h.sizeVerdict buffer
    else .accepts
  else if toInt32 (h.request.contentLength - toInt32 buffer.length) ≥ 0 then .accepts
  else .refuses statusBadRequest

/-- The handler with another buffer and with other counters. -/
def withCounters (h : Handler) (buffer : Bytes) (contentLength contentTotalLength : Int) :
    Handler where
  context := { h.context with buffer := buffer }
  request := { h.request with
    contentLength := contentLength, contentTotalLength := contentTotalLength }

/-- What a call leaves that keeps away from its sink: the verdict, the bytes and the counters, and nothing
else. -/
inductive Settled (h : Handler) : Verdict → Ret × Handler → Prop where
  | waits (buffer : Bytes) (n m : Int) : Settled h .waits (.reqContinue, h.withCounters buffer n m)
  | refuses {ret : Ret} (code : Nat) (hret : ret = .reqDone ∨ ret = h.bodyRet) (buffer : Bytes)
      (n m : Int) : Settled h (.refuses code) (ret, (h.withCounters buffer n m).refuseBody code)

/-- A complete size line. -/
theorem settled_readChunkSize (sys : Sys) {h : Handler} (hsize : h.request.contentLength = -1)
    (hsink : h.sizeVerdict h.context.buffer ≠ .accepts) :
    ∃ r, readChunkSize sys h = .error r ∧ Settled h (h.sizeVerdict h.context.buffer) r := by
  have hrefuses : ∀ (code : Nat) (h' : Handler) (buffer : Bytes) (n m : Int),
      h' = h.withCounters buffer n m →
      Settled h (.refuses code) (h.bodyRet, h'.refuseBody code) := by
    rintro code h' buffer n m rfl
    exact .refuses code (Or.inr rfl) buffer n m
  cases hfind : BinaryBuffer.find h.context.buffer crlf with
  | none =>
    have hverdict : h.sizeVerdict h.context.buffer = .waits := by rw [sizeVerdict, hfind]
    refine ⟨(.reqContinue, h), readChunkSize_of_none sys hsize hfind, ?_⟩
    rw [hverdict]
    exact .waits h.context.buffer h.request.contentLength h.request.contentTotalLength
  | some pos =>
    rw [readChunkSize_of_find sys hsize hfind rfl rfl]
    rw [sizeVerdict, hfind] at hsink ⊢
    dsimp only at hsink ⊢
    generalize hn : sToContentLength (BinaryBuffer.substr h.context.buffer 0 pos) true = n at hsink ⊢
    by_cases hline : BinaryBuffer.substr h.context.buffer 0 pos = []
    · rw [if_pos hline, if_pos (Or.inl hline)]
      exact ⟨_, rfl, hrefuses _ h h.context.buffer h.request.contentLength
        h.request.contentTotalLength rfl⟩
    · rw [if_neg hline]
      by_cases hinvalid : n = contentLengthInvalid
      · rw [if_pos hinvalid, if_pos (Or.inr hinvalid)]
        exact ⟨_, rfl, hrefuses _ (h.setContentLength n) h.context.buffer n
          h.request.contentTotalLength rfl⟩
      · have hnot : ¬ (BinaryBuffer.substr h.context.buffer 0 pos = [] ∨ n = contentLengthInvalid) :=
          fun hor => hor.elim hline hinvalid
        rw [if_neg hnot] at hsink ⊢
        rw [if_neg hinvalid]
        by_cases hzero : n = 0
        · rw [if_pos hzero] at hsink ⊢
          rw [if_pos hzero]
          refine ⟨_, rfl, ?_⟩
          have hterminator : ¬ isTerminator h.context.buffer 0 = true := fun hend =>
            hsink (if_pos hend)
          rw [if_neg hterminator]
          unfold readEndOfTransfer
          have hterminator' : ¬ isTerminator (h.setContentLength n).context.buffer 0 = true :=
            hterminator
          rw [if_neg hterminator']
          by_cases hpart : (List.range' 1 4).any (isTerminator h.context.buffer) = true
          · have hpart' : (List.range' 1 4).any
                (isTerminator (h.setContentLength n).context.buffer) = true := hpart
            rw [if_pos hpart, if_pos hpart']
            exact .waits h.context.buffer (-1) h.request.contentTotalLength
          · have hpart' : ¬ (List.range' 1 4).any
                (isTerminator (h.setContentLength n).context.buffer) = true := hpart
            rw [if_neg hpart, if_neg hpart']
            exact hrefuses _ (h.setContentLength n) h.context.buffer n
              h.request.contentTotalLength rfl
        · rw [if_neg hzero] at hsink ⊢
          rw [if_neg hzero]
          have hlimit : h.ExceedsLimit n := by
            by_contra hnot
            exact hsink (if_neg hnot)
          rw [if_pos hlimit, if_pos hlimit]
          exact ⟨_, rfl, hrefuses _ (h.startChunk pos n) _ n _ rfl⟩

/-- The end of a chunk. -/
theorem readEndOfChunk_of_isPrefixOf {h : Handler} (hzero : h.request.contentLength = 0)
    (hcrlf : crlf.isPrefixOf h.context.buffer = true) :
    readEndOfChunk h =
      .ok (h.withCounters (h.context.buffer.drop 2) (-1) h.request.contentTotalLength) := by
  have hlength : h.context.buffer.length ≥ 2 := (List.isPrefixOf_iff_prefix.mp hcrlf).length_le
  unfold readEndOfChunk
  dsimp only
  rw [if_pos hzero, if_pos hlength, BinaryBuffer.rfind_zero (List.cons_ne_nil _ _), if_pos hcrlf]
  dsimp only
  unfold eraseBuffer
  rw [BinaryBuffer.erase_zero]
  rfl

theorem Settled.of_withCounters {h : Handler} {buffer : Bytes} {n m : Int} {v : Verdict}
    {r : Ret × Handler} (hsettled : Settled (h.withCounters buffer n m) v r) : Settled h v r := by
  cases hsettled with
  | waits buffer' n' m' => exact .waits buffer' n' m'
  | refuses code hret buffer' n' m' => exact @Settled.refuses h _ code hret buffer' n' m'

/-- A round that keeps away from the sink is the last one. -/
theorem settled_readRound (sys : Sys) {h : Handler} (hchunked : h.request.chunked = true)
    (hne : h.context.buffer ≠ []) (hsink : h.bodyVerdict ≠ .accepts) :
    ∃ r, readRound sys h = .error r ∧ Settled h h.bodyVerdict r := by
  have hverdict : h.bodyVerdict = if h.request.contentLength = 0 then
      if crlf.isPrefixOf h.context.buffer then h.sizeVerdict (h.context.buffer.drop 2)
      else if h.context.buffer = [cr] then .waits
      else .refuses statusBadRequest
    else if h.request.contentLength = -1 then h.sizeVerdict h.context.buffer
    else .accepts := by
    unfold bodyVerdict
    dsimp only
    rw [if_pos hchunked, if_neg hne]
  rw [hverdict] at hsink ⊢
  by_cases hzero : h.request.contentLength = 0
  · rw [if_pos hzero] at hsink ⊢
    by_cases hprefix : crlf.isPrefixOf h.context.buffer = true
    · -- the end of a chunk, and then a size line
      rw [if_pos hprefix] at hsink ⊢
      obtain ⟨r, hr, hsettled⟩ := @settled_readChunkSize sys
        (h.withCounters (h.context.buffer.drop 2) (-1) h.request.contentTotalLength) rfl hsink
      refine ⟨r, ?_, hsettled.of_withCounters⟩
      rw [readRound_of_ok (readEndOfChunk_of_isPrefixOf hzero hprefix), hr]
      rfl
    · rw [if_neg hprefix] at hsink ⊢
      by_cases hcr : h.context.buffer = [cr]
      · rw [if_pos hcr]
        refine ⟨(.reqContinue, h), readRound_of_error ?_,
          .waits h.context.buffer h.request.contentLength h.request.contentTotalLength⟩
        unfold readEndOfChunk
        dsimp only
        rw [if_pos hzero, hcr]
        rfl
      · rw [if_neg hcr]
        have hrefused : ∃ ret, readEndOfChunk h = .error (ret, h.refuseBody statusBadRequest) ∧
            (ret = .reqDone ∨ ret = h.bodyRet) := by
          unfold readEndOfChunk
          dsimp only
          rw [if_pos hzero]
          by_cases hlength : h.context.buffer.length ≥ 2
          · rw [if_pos hlength, BinaryBuffer.rfind_zero (List.cons_ne_nil _ _), if_neg hprefix]
            exact ⟨_, rfl, Or.inl rfl⟩
          · rw [if_neg hlength]
            have hone : h.context.buffer.length = 1 ∧ h.context.buffer.head? ≠ some cr := by
              match hb : h.context.buffer, hne, hcr, hlength with
              | [], hne, _, _ => exact absurd rfl hne
              | [x], _, hcr, _ => exact ⟨rfl, fun hx => hcr (by cases hx; rfl)⟩
              | _ :: _ :: _, _, _, hlength => simp at hlength
            rw [if_pos hone]
            exact ⟨_, rfl, Or.inr rfl⟩
        obtain ⟨ret, hr, hret⟩ := hrefused
        exact ⟨_, readRound_of_error hr, .refuses _ hret h.context.buffer h.request.contentLength
          h.request.contentTotalLength⟩
  · rw [if_neg hzero] at hsink ⊢
    by_cases hsize : h.request.contentLength = -1
    · rw [if_pos hsize] at hsink ⊢
      have hok : readEndOfChunk h = .ok h := if_neg hzero
      obtain ⟨r, hr, hsettled⟩ := settled_readChunkSize sys hsize hsink
      refine ⟨r, ?_, hsettled⟩
      rw [readRound_of_ok hok, hr]
      rfl
    · exact absurd (if_neg hsize) hsink

/-- **A call that keeps away from its sink** waits or refuses, as the verdict on the unread bytes
says. -/
theorem settled_readBody (sys : Sys) {h : Handler} (hsink : h.bodyVerdict ≠ .accepts) :
    Settled h h.bodyVerdict (readBody sys h) := by
  unfold readBody
  by_cases hchunked : h.request.chunked = true
  · rw [if_pos hchunked]
    unfold readChunked
    cases hlength : h.context.buffer.length with
    | zero =>
      have hnil : h.context.buffer = [] := List.eq_nil_of_length_eq_zero hlength
      have hverdict : h.bodyVerdict = .waits := by
        unfold bodyVerdict
        dsimp only
        rw [if_pos hchunked, if_pos hnil]
      rw [hverdict]
      exact .waits h.context.buffer h.request.contentLength h.request.contentTotalLength
    | succ n =>
      have hne : h.context.buffer ≠ [] := by
        intro hnil
        rw [hnil] at hlength
        cases hlength
      obtain ⟨r, hr, hsettled⟩ := settled_readRound sys hchunked hne hsink
      rw [readChunkedLoop, if_neg hne, hr]
      exact hsettled
  · rw [if_neg hchunked]
    have hverdict : h.bodyVerdict =
        if toInt32 (h.request.contentLength - toInt32 h.context.buffer.length) ≥ 0 then .accepts
        else .refuses statusBadRequest := by
      unfold bodyVerdict
      dsimp only
      rw [if_neg hchunked]
    rw [hverdict] at hsink ⊢
    unfold readContent
    by_cases hfits : toInt32 (h.request.contentLength - toInt32 h.context.buffer.length) ≥ 0
    · exact absurd (if_pos hfits) hsink
    · rw [if_neg hfits, if_neg hfits]
      exact .refuses _ (Or.inr rfl) h.context.buffer h.request.contentLength
        h.request.contentTotalLength

/-! ## The body readers -/

/-- A rule for the body readers: `I` holds of the handler between their steps, and `P` of what they
answer. -/
structure ReaderRule (sys : Sys) (I : Handler → Prop) (P : Ret × Handler → Prop) : Prop where
  waits : ∀ {h}, I h → P (.reqContinue, h)
  buffer : ∀ {h : Handler} b, I h → I { h with context := { h.context with buffer := b } }
  counters : ∀ {h : Handler} n m, I h →
    I { h with request := { h.request with contentLength := n, contentTotalLength := m } }
  refuses : ∀ {h : Handler} {ret} code, ret = .reqDone ∨ ret = h.bodyRet → I h →
    P (ret, h.refuseBody code)
  writes : ∀ {h h' ret} size, I h → writeChunk sys h size = (ret, h') → ret ≠ .reqError → I h'
  writeFails : ∀ {h h'} size, I h → writeChunk sys h size = (.reqError, h') → P (.reqError, h')
  saves : ∀ {h h' ret}, I h → saveFile sys h = (ret, h') → (∀ fault, ret ≠ .throws fault) →
    P (h'.endBody.bodyRet, h'.endBody)
  saveFails : ∀ {h h' fault}, I h → saveFile sys h = (.throws fault, h') → P (.throws fault, h')

/-- What a round leaves: a handler to go on with, or an answer. -/
inductive Round.Meets (I : Handler → Prop) (P : Ret × Handler → Prop) : Round → Prop where
  | goesOn {h : Handler} (hI : I h) : Round.Meets I P (.ok h)
  | returns {r : Ret × Handler} (hP : P r) : Round.Meets I P (.error r)

namespace ReaderRule

variable {sys : Sys} {I : Handler → Prop} {P : Ret × Handler → Prop} (rule : ReaderRule sys I P)

include rule

theorem contentLength {h : Handler} (n : Int) (hI : I h) : I (h.setContentLength n) :=
  rule.counters n h.request.contentTotalLength hI

theorem consumeBuffer {h : Handler} (hI : I h) : I h.consumeBuffer :=
  rule.buffer [] (rule.contentLength _ hI)

/-- What is saved ends the body, unless an exception is thrown. -/
theorem save {h : Handler} (hI : I h) :
    P (match Handler.saveFile sys h with
      | (.throws f, h) => ((.throws f : Ret), h)
      | (_, h) => (h.endBody.bodyRet, h.endBody)) := by
  cases hsave : Handler.saveFile sys h with
  | mk ret h' =>
    cases ret with
    | throws f => exact rule.saveFails hI hsave
    | _ => exact rule.saves hI hsave (by simp)

theorem readContent {h : Handler} (hI : I h) : P (readContent sys h) := by
  unfold Handler.readContent
  split_ifs with hsize
  · cases hwrite : Handler.writeChunk sys h h.context.buffer.length with
    | mk ret h' =>
      have hrest : I h' → P (if h'.consumeBuffer.request.contentLength = 0 then
          match Handler.saveFile sys h'.consumeBuffer with
          | (.throws f, h) => ((.throws f : Ret), h)
          | (_, h) => (h.endBody.bodyRet, h.endBody)
        else (.reqContinue, h'.consumeBuffer)) := by
        intro hI'
        have hconsume := rule.consumeBuffer hI'
        split_ifs
        · exact rule.save hconsume
        · exact rule.waits hconsume
      cases ret with
      | reqError => exact rule.writeFails _ hI hwrite
      | _ => exact hrest (rule.writes _ hI hwrite (by simp))
  · exact rule.refuses _ (Or.inr rfl) hI

theorem readEndOfChunk {h : Handler} (hI : I h) : (readEndOfChunk h).Meets I P := by
  unfold Handler.readEndOfChunk
  dsimp only
  split_ifs
  · cases BinaryBuffer.rfind h.context.buffer crlf 0 with
    | none => exact .returns (rule.refuses _ (Or.inl rfl) hI)
    | some pos => exact .goesOn (rule.contentLength _ (rule.buffer _ hI))
  · exact .returns (rule.refuses _ (Or.inr rfl) hI)
  · exact .returns (rule.waits hI)
  · exact .goesOn hI

theorem readEndOfTransfer {h : Handler} (hI : I h) : P (readEndOfTransfer sys h) := by
  unfold Handler.readEndOfTransfer
  split_ifs
  · exact rule.save (rule.buffer [] hI)
  · exact rule.waits (rule.contentLength _ hI)
  · exact rule.refuses _ (Or.inr rfl) hI

theorem readChunkSize {h : Handler} (hI : I h) : (readChunkSize sys h).Meets I P := by
  unfold Handler.readChunkSize
  split_ifs with hsize
  · cases BinaryBuffer.find h.context.buffer crlf with
    | none => exact .returns (rule.waits hI)
    | some pos =>
      have hlength := rule.contentLength
        (sToContentLength (BinaryBuffer.substr h.context.buffer 0 pos) true) hI
      dsimp only
      split_ifs
      · exact .returns (rule.refuses _ (Or.inr rfl) hI)
      · exact .returns (rule.refuses _ (Or.inr rfl) hlength)
      · exact .returns (rule.readEndOfTransfer hlength)
      · exact .returns (rule.refuses _ (Or.inr rfl) (rule.counters _ _ (rule.buffer _ hlength)))
      · exact .goesOn (rule.counters _ _ (rule.buffer _ hlength))
  · exact .goesOn hI

theorem readChunk {h : Handler} (hI : I h) : (readChunk sys h).Meets I P := by
  unfold Handler.readChunk
  dsimp only
  split_ifs
  · cases hwrite : Handler.writeChunk sys h (toSize h.request.contentLength) with
    | mk ret h' =>
      cases ret with
      | reqError => exact .returns (rule.writeFails _ hI hwrite)
      | _ => exact .goesOn (rule.contentLength _ (rule.buffer _ (rule.writes _ hI hwrite (by simp))))
  · cases hwrite : Handler.writeChunk sys h h.context.buffer.length with
    | mk ret h' =>
      cases ret with
      | reqError => exact .returns (rule.writeFails _ hI hwrite)
      | _ => exact .goesOn (rule.consumeBuffer (rule.writes _ hI hwrite (by simp)))

omit rule in
theorem bind {r : Round} {f : Handler → Round} (hr : r.Meets I P)
    (hf : ∀ {h}, I h → (f h).Meets I P) : Round.Meets I P (r >>= f) := by
  cases hr with
  | goesOn hI => exact hf hI
  | returns hP => exact .returns hP

theorem readRound {h : Handler} (hI : I h) : (readRound sys h).Meets I P :=
  bind (rule.readEndOfChunk hI) fun hI => bind (rule.readChunkSize hI) rule.readChunk

theorem readChunkedLoop : ∀ (n : Nat) {h : Handler}, I h → P (readChunkedLoop sys n h)
  | 0, _, hI => rule.waits hI
  | n + 1, h, hI => by
    rw [Handler.readChunkedLoop]
    split_ifs with hbuffer
    · exact rule.waits hI
    · have hround := rule.readRound hI
      generalize Handler.readRound sys h = r at hround ⊢
      cases hround with
      | goesOn hI' => exact readChunkedLoop n hI'
      | returns hP => exact hP

/-- **The readers.**  What holds between the steps of the readers, and of all that they answer, when each of
their operations respects it. -/
theorem readBody {h : Handler} (hI : I h) : P (readBody sys h) := by
  unfold Handler.readBody
  split_ifs
  · exact rule.readChunkedLoop _ hI
  · exact rule.readContent hI

end ReaderRule

/-! ## The fields -/

/-- The fields that the body readers may change; all others of a handler are the same after them by
computation. -/
structure BodyFields where
  buffer : Bytes
  requestState : RequestState
  statusCode : Nat
  reasonPhrase : Bytes
  fs : FileSystem
  calls : List CgiCall
  contentLength : Int
  contentTotalLength : Int
  file : OStream

def withBody (h : Handler) (f : BodyFields) : Handler where
  context := { h.context with
    buffer := f.buffer
    requestState := f.requestState
    response := { h.context.response with
      statusCode := f.statusCode, reasonPhrase := f.reasonPhrase }
    world := { h.context.world with fs := f.fs, calls := f.calls } }
  request := { h.request with
    contentLength := f.contentLength
    contentTotalLength := f.contentTotalLength
    file := f.file }

/-- The fields of a handler that the body readers may change. -/
def bodyFields (h : Handler) : BodyFields where
  buffer := h.context.buffer
  requestState := h.context.requestState
  statusCode := h.context.response.statusCode
  reasonPhrase := h.context.response.reasonPhrase
  fs := h.context.world.fs
  calls := h.context.world.calls
  contentLength := h.request.contentLength
  contentTotalLength := h.request.contentTotalLength
  file := h.request.file

/-- What the body readers do to a handler: they may end the body, and they call on the socket of
the CGI only when there is a CGI. -/
structure Reads (h h' : Handler) : Prop where
  fields : ∃ f, h' = h.withBody f
  requestState : h'.context.requestState = h.context.requestState ∨
    h'.context.requestState = h.context.requestState.setWorkInComplete.setCgiOutComplete
  calls : ∃ calls, h'.context.world.calls = h.context.world.calls ++ calls ∧
    ∀ call ∈ calls, call.fd = h.context.cgiSocket ∧ h.request.cgiPath.isSome = true

theorem Reads.of_fields {h : Handler} (f : BodyFields)
    (hstate : f.requestState = h.context.requestState ∨
      f.requestState = h.context.requestState.setWorkInComplete.setCgiOutComplete)
    (hcalls : f.calls = h.context.world.calls) : Reads h (h.withBody f) :=
  ⟨⟨f, rfl⟩, hstate, [], by rw [List.append_nil]; exact hcalls, by simp⟩

theorem Reads.trans {h₁ h₂ h₃ : Handler} (h₁₂ : Reads h₁ h₂) (h₂₃ : Reads h₂ h₃) :
    Reads h₁ h₃ := by
  obtain ⟨⟨f, rfl⟩, hstate, calls, hcalls, hmem⟩ := h₁₂
  obtain ⟨⟨g, rfl⟩, hstate', calls', hcalls', hmem'⟩ := h₂₃
  refine ⟨⟨g, rfl⟩, ?_, calls ++ calls', ?_, ?_⟩
  · rcases hstate' with hstate' | hstate'
    · rw [hstate']
      exact hstate
    · right
      rcases hstate with hstate | hstate
      · rw [hstate', hstate]
      · rw [hstate', hstate]
        rfl
  · rw [hcalls', hcalls, List.append_assoc]
  · intro call hcall
    exact (List.mem_append.mp hcall).elim (hmem call) (hmem' call)

theorem reads_writeChunk (sys : Sys) (h : Handler) (size : Nat) :
    Reads h (writeChunk sys h size).2 := by
  unfold writeChunk
  cases hcgi : h.request.cgiPath with
  | none =>
    show Reads h (writeFile sys h h.request.contentLength)
    unfold writeFile
    split_ifs
    · exact .of_fields { h.bodyFields with fs := _, file := _ } (Or.inl rfl) rfl
    · exact .of_fields h.bodyFields (Or.inl rfl) rfl
  | some path =>
    have hcall : ∀ call : CgiCall, call.fd = h.context.cgiSocket →
        Reads h { h with context := h.context.record call } := fun call hfd =>
      ⟨⟨{ h.bodyFields with calls := _ }, rfl⟩, Or.inl rfl, [call], rfl, by
        intro call' hmem
        rw [List.mem_singleton.mp hmem, hcgi]
        exact ⟨hfd, rfl⟩⟩
    show Reads h (sendCGI sys h size).2
    unfold sendCGI
    dsimp only
    cases (if h.context.cgiSocket = -1 then Send.error
      else sys.cgiSend h.context.world.calls.length) <;> exact hcall _ rfl

theorem reads_setStatusCode (h : Handler) (code : Nat) : Reads h (h.setStatusCode code) :=
  .of_fields { h.bodyFields with statusCode := _, reasonPhrase := _ } (Or.inl rfl) rfl

theorem reads_setFs (h : Handler) (fs : FileSystem) :
    Reads h { h with context := h.context.setFs fs } :=
  .of_fields { h.bodyFields with fs := fs } (Or.inl rfl) rfl

theorem Reads.refl (h : Handler) : Reads h h := .of_fields h.bodyFields (Or.inl rfl) rfl

/-- `publish` with the answer of `access` left open: the kernel may answer otherwise than the table of the
files says. -/
def publishWith (sys : Sys) (found : Bool) (h : Handler) : Handler :=
  let path := h.request.path.str
  let tmp := h.request.tmpFilename.str
  let h := h.setStatusCode statusCreated
  let removed := sys.remove h.context.world.fs path
  let h :=
    if found then
      let h := { h with context := h.context.setFs removed.2 }
      if removed.1 then h else h.setStatusCode statusInternalServerError
    else h
  let renamed := sys.rename h.context.world.fs tmp path
  let h := { h with context := h.context.setFs renamed.2 }
  let h := if renamed.1 then h else h.setStatusCode statusInternalServerError
  { h with context := h.context.setFs (sys.remove h.context.world.fs tmp).2 }

theorem publish_eq_publishWith (sys : Sys) (h : Handler) :
    publish sys h = publishWith sys (h.request.path.access h.context.world.fs .exists) h := rfl

/-- The handler with another file system and another status. -/
def withOutcome (h : Handler) (fs : FileSystem) (code : Nat) : Handler :=
  { h with context := (h.context.setFs fs).setStatusCode code }

/-- The file system that the temporary file is renamed in. -/
def cleared (sys : Sys) (found : Bool) (h : Handler) : FileSystem :=
  if found then (sys.remove h.context.world.fs h.request.path.str).2 else h.context.world.fs

/-- The status it ends with: 201 when `rename` succeeds, and `remove` as well if it is called. -/
def publishCode (sys : Sys) (found : Bool) (h : Handler) : Nat :=
  if (found = true → (sys.remove h.context.world.fs h.request.path.str).1 = true) ∧
      (sys.rename (cleared sys found h) h.request.tmpFilename.str h.request.path.str).1 = true then
    statusCreated
  else statusInternalServerError

/-- What publishing comes to: the calls on the files, one after the other, and a status that follows from
their answers. -/
theorem publishWith_eq (sys : Sys) (found : Bool) (h : Handler) :
    publishWith sys found h = h.withOutcome
      (sys.remove (sys.rename (cleared sys found h) h.request.tmpFilename.str h.request.path.str).2
        h.request.tmpFilename.str).2 (publishCode sys found h) := by
  unfold publishWith
  extract_lets path tmp h₁ removed hfs h₂ renamed h₃ h₄
  have hh₂ : h₂ = h.withOutcome (cleared sys found h)
      (if found = true → removed.1 = true then statusCreated else statusInternalServerError) := by
    dsimp only [h₂, cleared]
    cases found with
    | false => rfl
    | true =>
      by_cases hremoved : removed.1 = true
      · rw [if_pos rfl, if_pos rfl, if_pos hremoved, if_pos fun _ => hremoved]
        rfl
      · rw [if_pos rfl, if_pos rfl, if_neg hremoved, if_neg fun h => hremoved (h rfl)]
        rfl
  have hrenamed : renamed = sys.rename (cleared sys found h) tmp path := by
    dsimp only [renamed]
    rw [hh₂]
    rfl
  have hcode : publishCode sys found h =
      if (found = true → removed.1 = true) ∧ renamed.1 = true then statusCreated
      else statusInternalServerError := by
    rw [hrenamed]
    rfl
  have hh₄ : h₄ = h.withOutcome renamed.2 (publishCode sys found h) := by
    dsimp only [h₄, h₃]
    rw [hh₂]
    by_cases hmoved : renamed.1 = true
    · rw [if_pos hmoved]
      by_cases hremoved : found = true → removed.1 = true
      · rw [hcode, if_pos hremoved, if_pos ⟨hremoved, hmoved⟩]
        rfl
      · rw [hcode, if_neg hremoved, if_neg fun hand => hremoved hand.1]
        rfl
    · have hfails : publishCode sys found h = statusInternalServerError := by
        rw [hcode]
        exact if_neg fun hand => hmoved hand.2
      rw [if_neg hmoved, hfails]
      rfl
  rw [hh₄, hrenamed]
  rfl

theorem reads_publish (sys : Sys) (h : Handler) : Reads h (publish sys h) := by
  rw [publish_eq_publishWith, publishWith_eq]
  exact (reads_setFs h _).trans (reads_setStatusCode _ _)

theorem reads_saveFile (sys : Sys) (h : Handler) : Reads h (saveFile sys h).2 := by
  unfold saveFile
  cases hcgi : h.request.cgiPath with
  | none =>
    have hclose : Reads h { h with
        request := { h.request with file := { h.request.file with isOpen := false } } } :=
      .of_fields { h.bodyFields with file := _ } (Or.inl rfl) rfl
    exact hclose.trans (reads_publish sys _)
  | some path =>
    have hcalls : Reads h
        { h with context := ((h.context.record (.shutdown h.context.cgiSocket)).setStatusCode
          statusOk).record (.epollCtl h.context.cgiSocket) } := by
      refine ⟨⟨{ h.bodyFields with calls := _, statusCode := _, reasonPhrase := _ }, rfl⟩,
        Or.inl rfl, [.shutdown h.context.cgiSocket, .epollCtl h.context.cgiSocket], ?_, ?_⟩
      · show (_ ++ [_]) ++ [_] = _
        rw [List.append_assoc]
        rfl
      · intro call hmem
        rw [hcgi]
        rcases List.mem_pair.mp hmem with rfl | rfl <;> exact ⟨rfl, rfl⟩
    dsimp only
    split_ifs <;> exact hcalls

theorem reads_refuseBody (h : Handler) (code : Nat) : Reads h (h.refuseBody code) :=
  .of_fields { h.bodyFields with requestState := _, statusCode := _, reasonPhrase := _ } (Or.inr rfl)
    rfl

theorem reads_endBody (h : Handler) : Reads h h.endBody :=
  .of_fields { h.bodyFields with requestState := _ } (Or.inr rfl) rfl

theorem readerRule_reads (sys : Sys) (h₀ : Handler) :
    ReaderRule sys (Reads h₀) fun r => Reads h₀ r.2 where
  waits := id
  buffer b hI := hI.trans (.of_fields { bodyFields _ with buffer := b } (Or.inl rfl) rfl)
  counters n m hI := hI.trans
    (.of_fields { bodyFields _ with contentLength := n, contentTotalLength := m } (Or.inl rfl) rfl)
  refuses code _ hI := hI.trans (reads_refuseBody _ code)
  writes := by
    intro h h' ret size hI hwrite _
    have hreads := reads_writeChunk sys h size
    rw [hwrite] at hreads
    exact hI.trans hreads
  writeFails := by
    intro h h' size hI hwrite
    have hreads := reads_writeChunk sys h size
    rw [hwrite] at hreads
    exact hI.trans hreads
  saves := by
    intro h h' ret hI hsave _
    have hreads := reads_saveFile sys h
    rw [hsave] at hreads
    exact hI.trans (hreads.trans (reads_endBody h'))
  saveFails := by
    intro h h' fault hI hsave
    have hreads := reads_saveFile sys h
    rw [hsave] at hreads
    exact hI.trans hreads

/-- What a body reader does, in whatever framing: it takes unread bytes, counts them, and hands them on. -/
theorem reads_readBody (sys : Sys) (h : Handler) : Reads h (readBody sys h).2 :=
  (readerRule_reads sys h).readBody (.refl h)

theorem Reads.le {h h' : Handler} (hreads : Reads h h') :
    h.context.requestState.Le h'.context.requestState := by
  rcases hreads.requestState with heq | heq <;> rw [heq]
  · exact RequestState.Le.refl _
  · constructor <;>
      simp +contextual [RequestState.setWorkInComplete, RequestState.setCgiOutComplete]

/-! ## The answers -/

/-- `REQ_DONE` is answered only when the body is done with. -/
def Ended (r : Ret × Handler) : Prop :=
  r.1 = .reqDone → r.2.context.requestState.workIn = true

theorem readerRule_ended (sys : Sys) : ReaderRule sys (fun _ => True) Ended where
  waits _ := nofun
  buffer _ _ := trivial
  counters _ _ _ := trivial
  refuses _ _ _ := fun _ => rfl
  writes _ _ _ _ := trivial
  writeFails _ _ _ := nofun
  saves _ _ _ := fun _ => rfl
  saveFails _ _ := nofun

theorem ended_readBody (sys : Sys) (h : Handler) : Ended (readBody sys h) :=
  (readerRule_ended sys).readBody trivial

/-- Without a CGI no answer is an error. -/
theorem readerRule_file (sys : Sys) :
    ReaderRule sys (fun h => h.request.cgiPath = none)
      fun r => r.1 = .reqContinue ∨ r.1 = .reqDone where
  waits _ := Or.inl rfl
  buffer _ := id
  counters _ _ := id
  refuses := by
    rintro h ret code (rfl | rfl) hfile
    · exact Or.inr rfl
    · right
      show h.bodyRet = .reqDone
      rw [bodyRet, hfile]
  writes := by
    intro h h' ret size hfile hwrite _
    have hreads := reads_writeChunk sys h size
    rw [hwrite] at hreads
    obtain ⟨f, hf⟩ := hreads.fields
    rw [show h' = h.withBody f from hf]
    exact hfile
  writeFails := by
    intro h h' size hfile hwrite
    rw [writeChunk, hfile] at hwrite
    cases hwrite
  saves := by
    intro h h' ret hfile hsave _
    have hreads := reads_saveFile sys h
    rw [hsave] at hreads
    obtain ⟨f, hf⟩ := hreads.fields
    right
    show h'.endBody.bodyRet = .reqDone
    rw [bodyRet, show h' = h.withBody f from hf, show (h.withBody f).endBody.request.cgiPath =
      h.request.cgiPath from rfl, hfile]
  saveFails := by
    intro h h' fault hfile hsave
    rw [saveFile, hfile] at hsave
    cases hsave

theorem answers_readBody (sys : Sys) {h : Handler} (hfile : h.request.cgiPath = none) :
    (readBody sys h).1 = .reqContinue ∨ (readBody sys h).1 = .reqDone :=
  (readerRule_file sys).readBody hfile

end Handler
end Webserv
