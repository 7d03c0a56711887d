import Webserv.BodyLimit
import Webserv.BufferOrder
import Webserv.ContentLength
import Webserv.Effects.Relaying

/-!
# Size lines

A chunked body is announced by its size lines.  A line of zeros is followed by the end of the transfer,
which `_readChunked` looks for in a table of five terminators with a comparison of the common length.  Any
other size is added to `_contentTotalLength` before the sum is compared with the limit.

* `readChunked_zeros`: what is done with a line of zeros.
* `endExact_iff`: the buffers on which that is the end of the transfer, and nothing else is.
* `acceptedLines`: the sizes that are accepted, and the sums after them.
* `exactSums_iff`: the sizes for which these are the sums of the sizes.

## Why the table does not tell an end from its beginning

The table holds the whole terminator and, in separate entries, what may be there of it so far; the first
means that the body is over, the others that more is awaited.  But the comparison looks at the common length
only (`BufferOrder`), so the first entry already agrees with each of its own beginnings.  After `0` and a
line end the body is finished, although its last line end is still to come.  Behind a line of several zeros
the first entries fail at the second byte and the last one agrees, so the call waits, however much arrives.

## Why the sums are recorded

The sum is kept in an `int32_t` and compared with the limit after it was added.  Two chunks that are each
below the limit may have a sum that is not, and that wraps to a negative number.  `acceptedLines` collects
the sizes that pass, each with the number in `_contentTotalLength` after it, over all calls of the reader.
What the numbers should be is said of the list alone (`ExactSums`), and so is the condition (`SumsFit`).
The code enters through `accepts_readRound`, one round of the loop, and two inductions, over the rounds of a
call and over the calls.
-/

namespace Webserv

/-! ## Zeros -/

/-- One or more zeros: a size line that stands for the end of the transfer. -/
structure IsZeros (z : Bytes) : Prop where
  ne_nil : z ≠ []
  zeros : ∀ c ∈ z, c = 48

theorem IsZeros.isNumeral {z : Bytes} (hz : IsZeros z) : IsNumeral 16 z 0 where
  ne_nil := hz.ne_nil
  digits c hc := by
    rw [hz.zeros c hc]
    rfl
  value := by
    obtain ⟨-, hzeros⟩ := hz
    unfold digitsValue
    induction z with
    | nil => rfl
    | cons c z ih =>
      obtain rfl : c = 48 := hzeros c List.mem_cons_self
      exact ih fun d hd => hzeros d (List.mem_cons_of_mem _ hd)

theorem IsZeros.cr_notMem {z : Bytes} (hz : IsZeros z) : cr ∉ z := fun hmem =>
  absurd (hz.zeros cr hmem) (by decide)

namespace Handler

/-! ## The end of the transfer -/

/-- The last size line and the empty trailer: what ends a transfer, for any line of zeros. -/
def lastChunk (z : Bytes) : Bytes := z ++ (crlf ++ crlf)

/-- The buffer is cleared, and the body is saved. -/
def finishBody (sys : Sys) (h : Handler) : Ret × Handler :=
  match saveFile sys h.clearBuffer with
  | (.throws f, h) => (.throws f, h)
  | (_, h) => (h.endBody.bodyRet, h.endBody)

theorem buffer_saveFile (sys : Sys) (h : Handler) : (saveFile sys h).2.context.buffer = h.context.buffer := by
  unfold saveFile
  cases h.request.cgiPath with
  | none =>
    show (publish sys h.closeFile).context.buffer = _
    rw [publish_eq_publishWith, publishWith_eq]
    rfl
  | some path =>
    dsimp only
    split_ifs <;> rfl

theorem buffer_finishBody (sys : Sys) (h : Handler) : (finishBody sys h).2.context.buffer = [] := by
  have hsave := buffer_saveFile sys h.clearBuffer
  unfold finishBody
  generalize saveFile sys h.clearBuffer = r at hsave ⊢
  obtain ⟨ret, h'⟩ := r
  cases ret <;> exact hsave

variable {sys : Sys} {h : Handler} {z rest : Bytes}

/-- The table on a line of zeros: the whole terminator is compared with as much as is there, and the last
entry, a zero, always agrees. -/
theorem isTerminator_zeros (hz : IsZeros z) (hbuffer : h.context.buffer = z ++ (crlf ++ rest)) :
    (isTerminator h.context.buffer 0 = true ↔ z = [48] ∧ (rest <+: crlf ∨ crlf <+: rest)) ∧
      (List.range' 1 4).any (isTerminator h.context.buffer) = true := by
  obtain ⟨c, z', rfl⟩ := List.exists_cons_of_ne_nil hz.ne_nil
  obtain rfl : c = 48 := hz.zeros c List.mem_cons_self
  rw [hbuffer]
  constructor
  · have hfirst : isTerminator (48 :: z' ++ (crlf ++ rest)) 0 = true ↔
        48 :: z' ++ (crlf ++ rest) <+: 48 :: (crlf ++ crlf) ∨
          48 :: (crlf ++ crlf) <+: 48 :: z' ++ (crlf ++ rest) :=
      decide_eq_true_iff.trans BinaryBuffer.compare_eq_zero_iff
    rw [hfirst]
    cases z' with
    | nil => simp
    | cons d z' =>
      obtain rfl : d = 48 := hz.zeros d (List.mem_cons_of_mem _ List.mem_cons_self)
      refine iff_of_false ?_ (by simp)
      rintro ( hprefix | hprefix)
      · exact absurd (List.cons_prefix_cons.mp (List.cons_prefix_cons.mp hprefix).2).1 (by decide)
      · exact absurd (List.cons_prefix_cons.mp (List.cons_prefix_cons.mp hprefix).2).1 (by decide)
  · have hlast : isTerminator (48 :: z' ++ (crlf ++ rest)) 4 = true :=
      decide_eq_true (BinaryBuffer.compare_eq_zero_iff.mpr (Or.inr ⟨_, rfl⟩))
    exact List.any_eq_true.mpr ⟨4, by decide, hlast⟩

/-- **A line of zeros.**  The body is finished when the line is one zero and what is there of the trailer is
right; otherwise the call waits. -/
theorem readChunked_zeros (hsize : h.request.contentLength = -1) (hz : IsZeros z)
    (hbuffer : h.context.buffer = z ++ (crlf ++ rest)) :
    readChunked sys h =
      if z = [48] ∧ (rest <+: crlf ∨ crlf <+: rest) then finishBody sys (h.setContentLength 0)
      else (.reqContinue, h) := by
  obtain ⟨n, hn⟩ : ∃ n, h.context.buffer.length = n + 1 := by
    refine Nat.exists_eq_succ_of_ne_zero fun hzero => ?_
    rw [hbuffer] at hzero
    simp [crlf] at hzero
  have hne : h.context.buffer ≠ [] := by
    intro hnil
    rw [hnil] at hn
    cases hn
  have hok : readEndOfChunk h = .ok h := if_neg (by rw [hsize]; decide)
  have hfind : BinaryBuffer.find h.context.buffer crlf = some z.length := by
    rw [hbuffer, ← List.append_assoc]
    exact find_line hz.cr_notMem rest
  have hline : BinaryBuffer.substr h.context.buffer 0 z.length = z := by
    rw [hbuffer, BinaryBuffer.substr_zero, List.take_left]
  have hzero : sToContentLength z true = 0 := sToContentLength_of_isNumeral hz.isNumeral (by decide)
  have hend : readChunkSize sys h = .error (readEndOfTransfer sys (h.setContentLength 0)) := by
    rw [readChunkSize_of_find sys hsize hfind hline hzero, if_neg hz.ne_nil, if_neg (by decide), if_pos rfl]
  rw [readChunked, hn, readChunkedLoop, if_neg hne, readRound_of_ok hok, hend]
  show readEndOfTransfer sys (h.setContentLength 0) = _
  obtain ⟨hfirst, hany⟩ := isTerminator_zeros hz hbuffer
  have hback : (h.setContentLength 0).setContentLength (-1) = h := by
    show ({ h with request := { h.request with contentLength := -1 } } : Handler) = h
    rw [← hsize]
  unfold readEndOfTransfer
  by_cases hterminator : isTerminator h.context.buffer 0 = true
  · rw [if_pos (hfirst.mp hterminator)]
    exact if_pos hterminator
  · rw [if_neg fun h => hterminator (hfirst.mpr h)]
    refine (if_neg hterminator).trans ((if_pos hany).trans ?_)
    rw [hback]

/-- The end of the transfer is recognised: what starts with it is finished, what can still become it is
waited for, and anything else is refused. -/
structure EndExact (sys : Sys) (h : Handler) (z : Bytes) : Prop where
  finishes : readChunked sys h = finishBody sys (h.setContentLength 0) ↔ lastChunk z <+: h.context.buffer
  waits : readChunked sys h = (.reqContinue, h) ↔
    h.context.buffer <+: lastChunk z ∧ h.context.buffer ≠ lastChunk z
  refuses : readChunked sys h = (h.bodyRet, (h.setContentLength 0).refuseBody statusBadRequest) ↔
    ¬ (lastChunk z <+: h.context.buffer) ∧
      ¬ (h.context.buffer <+: lastChunk z ∧ h.context.buffer ≠ lastChunk z)

/-- The three answers are different ones. -/
theorem answers_ne (hsize : h.request.contentLength = -1) (hne : h.context.buffer ≠ []) :
    finishBody sys (h.setContentLength 0) ≠ (.reqContinue, h) ∧
      finishBody sys (h.setContentLength 0) ≠
        (h.bodyRet, (h.setContentLength 0).refuseBody statusBadRequest) ∧
      ((.reqContinue, h) : Ret × Handler) ≠
        (h.bodyRet, (h.setContentLength 0).refuseBody statusBadRequest) := by
  have hfinish := buffer_finishBody sys (h.setContentLength 0)
  refine ⟨fun heq => hne ?_, fun heq => hne ?_, fun heq => ?_⟩
  · rw [heq] at hfinish
    exact hfinish
  · rw [heq] at hfinish
    exact hfinish
  · have hcounter : h.request.contentLength = 0 :=
      congrArg (fun r : Ret × Handler => r.2.request.contentLength) heq
    rw [hsize] at hcounter
    exact absurd hcounter (by decide)

/-- **The end of a chunked body.**  After a line of zeros the end of the transfer is recognised exactly when
the line is one zero and the whole terminator is there, or the line is longer and its terminator is cut. -/
theorem endExact_iff (hsize : h.request.contentLength = -1) (hz : IsZeros z)
    (hline : z ++ crlf <+: h.context.buffer) :
    EndExact sys h z ↔ z = [48] ∧ lastChunk z <+: h.context.buffer ∨
      z ≠ [48] ∧ h.context.buffer <+: lastChunk z ∧ h.context.buffer ≠ lastChunk z := by
  obtain ⟨rest, hrest⟩ := hline
  have hbuffer : h.context.buffer = z ++ (crlf ++ rest) := by rw [← hrest, List.append_assoc]
  have hne : h.context.buffer ≠ [] := by
    rw [hbuffer]
    simp [crlf]
  -- the buffer and the terminator are compared behind the line
  have hstarts : lastChunk z <+: h.context.buffer ↔ crlf <+: rest := by
    rw [lastChunk, hbuffer, List.prefix_append_right_inj, List.prefix_append_right_inj]
  have hpart : h.context.buffer <+: lastChunk z ↔ rest <+: crlf := by
    rw [lastChunk, hbuffer, List.prefix_append_right_inj, List.prefix_append_right_inj]
  have hsame : h.context.buffer ≠ lastChunk z ↔ rest ≠ crlf := by
    rw [lastChunk, hbuffer, Ne, List.append_cancel_left_eq, List.append_cancel_left_eq]
  have hboth : crlf <+: rest → ¬ (rest <+: crlf ∧ rest ≠ crlf) := fun hstart hpart =>
    hpart.2 (List.IsPrefix.eq_of_length_le hpart.1 hstart.length_le)
  obtain ⟨hwait, hrefuse, hneither⟩ := @answers_ne sys h hsize hne
  have hread := @readChunked_zeros sys h z rest hsize hz hbuffer
  rw [hstarts, hpart, hsame]
  by_cases hone : z = [48]
  · by_cases hfinish : rest <+: crlf ∨ crlf <+: rest
    · rw [if_pos ⟨hone, hfinish⟩] at hread
      constructor
      · intro hexact
        exact Or.inl ⟨hone, hstarts.mp (hexact.finishes.mp hread)⟩
      · rintro (⟨-, hstart⟩ | ⟨hother, -⟩)
        · refine ⟨iff_of_true hread (hstarts.mpr hstart), ?_, ?_⟩
          · rw [hpart, hsame, hread]
            exact iff_of_false hwait (hboth hstart)
          · rw [hstarts, hread]
            exact iff_of_false hrefuse fun hnot => hnot.1 hstart
        · exact absurd hone hother
    · -- garbage behind the line is waited for
      rw [if_neg fun hand => hfinish hand.2] at hread
      refine iff_of_false (fun hexact => ?_) ?_
      · have hpartly := hexact.waits.mp hread
        exact hfinish (Or.inl (hpart.mp hpartly.1))
      · rintro (⟨-, hstart⟩ | ⟨hother, -⟩)
        · exact hfinish (Or.inr hstart)
        · exact hother hone
  · rw [if_neg fun hand => hone hand.1] at hread
    constructor
    · intro hexact
      have hpartly := hexact.waits.mp hread
      rw [hpart, hsame] at hpartly
      exact Or.inr ⟨hone, hpartly⟩
    · rintro (⟨hzero, -⟩ | ⟨-, hpartly⟩)
      · exact absurd hzero hone
      · refine ⟨?_, ?_, ?_⟩
        · rw [hstarts, hread]
          exact iff_of_false (fun heq => hwait heq.symm) fun hstart => hboth hstart hpartly
        · rw [hpart, hsame]
          exact iff_of_true hread hpartly
        · rw [hread, hpart, hsame]
          exact iff_of_false hneither fun hnot => hnot.2 hpartly

/-- A chunked POST to a script, under a limit, with unread bytes. -/
def limitedPost (limit : Int) (hlimit : limit ≤ int32Max) (buffer : Bytes) : Handler where
  context := {
    server := .single 3 {} fun _ => 0
    ruleBlock := some { maxBodySize := limit, maxBodySize_le := hlimit }
    cgiSocket := 7
    buffer := buffer
    world := { fs := { table := fun _ => none } } }
  request := {
    kind := .post
    path := Path.ofString (bytes "/x.php")
    cgiPath := some (Path.ofString (bytes "/php"))
    chunked := true
    contentLength := -1 }

theorem isZeros_one : IsZeros (bytes "0") := ⟨by decide, by decide +kernel⟩

/-- The whole end of a transfer. -/
theorem endExact_iff_whole :
    EndExact (Sys.quiet 0) (limitedPost 100 (by decide) (bytes "0\r\n\r\n")) (bytes "0") ↔
      bytes "0" = [48] ∧ lastChunk (bytes "0") <+: bytes "0\r\n\r\n" ∨
        bytes "0" ≠ [48] ∧ bytes "0\r\n\r\n" <+: lastChunk (bytes "0") ∧
          bytes "0\r\n\r\n" ≠ lastChunk (bytes "0") :=
  endExact_iff rfl isZeros_one (by decide)

/-- After `0\r\n` the body is finished, although its last line end is still to come. -/
theorem not_endExact :
    (limitedPost 100 (by decide) (bytes "0\r\n")).request.contentLength = -1 ∧ IsZeros (bytes "0") ∧
      bytes "0" ++ crlf <+: bytes "0\r\n" ∧
      ¬ EndExact (Sys.quiet 0) (limitedPost 100 (by decide) (bytes "0\r\n")) (bytes "0") := by
  refine ⟨rfl, isZeros_one, by decide, fun hexact => ?_⟩
  have hwaits := hexact.waits.mpr ⟨by decide, by decide⟩
  have hbuffer := congrArg (fun r : Ret × Handler => r.2.context.buffer) hwaits
  exact absurd hbuffer (by decide)

/-! ## Accepted sizes -/

/-- The size line that a round accepts: its size, and the sum after it. -/
def acceptedRound (sys : Sys) (h : Handler) : List (Int × Int) :=
  match readEndOfChunk h with
  | .error _ => []
  | .ok h =>
    if h.request.contentLength = -1 then
      match readChunkSize sys h with
      | .error _ => []
      | .ok h => [(h.request.contentLength, h.request.contentTotalLength)]
    else []

/-- The size lines that the loop of `_readChunked` accepts. -/
def acceptedLoop (sys : Sys) : Nat → Handler → List (Int × Int)
  | 0, _ => []
  | n + 1, h =>
    if h.context.buffer = [] then []
    else
      acceptedRound sys h ++
        match readRound sys h with
        | .ok h => acceptedLoop sys n h
        | .error _ => []

/-- Bytes that arrive between two calls. -/
def receiveRead (h : Handler) (read : Bytes) : Handler :=
  { h with context := { h.context with buffer := h.context.buffer ++ read } }

/-- The size lines that are accepted when `_readChunked` is called after each read, until it is done with
the body or sets a status. -/
def acceptedLines (h : Handler) : List (Sys × Bytes) → List (Int × Int)
  | [] => []
  | (sys, read) :: calls =>
    let h := h.receiveRead read
    acceptedLoop sys h.context.buffer.length h ++
      match readChunked sys h with
      | (.reqContinue, h) => if h.context.response.statusCode = statusNone then acceptedLines h calls else []
      | _ => []

/-- The recorded sums are the sums of the sizes so far, and within the limit. -/
def ExactSums (limit : Int) : Int → List (Int × Int) → Prop
  | _, [] => True
  | sum, (size, total) :: lines =>
    total = sum + size ∧ sum + size ≤ limit ∧ ExactSums limit (sum + size) lines

/-- The sums of the sizes so far are no larger than an `int32_t`. -/
def SumsFit : Int → List (Int × Int) → Prop
  | _, [] => True
  | sum, (size, _) :: lines => sum + size ≤ int32Max ∧ SumsFit (sum + size) lines

/-- From one sum to another over accepted size lines: each is positive and within the limit, and so is the
sum that is computed. -/
inductive Accepts (limit : Int) : Int → List (Int × Int) → Int → Prop where
  | nil (total : Int) : Accepts limit total [] total
  | cons {total total' size : Int} {lines : List (Int × Int)} (hpos : 0 < size) (hsize : size ≤ limit)
      (hsum : toInt32 (total + size) ≤ limit) (hlines : Accepts limit (toInt32 (total + size)) lines total') :
      Accepts limit total ((size, toInt32 (total + size)) :: lines) total'

theorem Accepts.append {limit t₁ t₂ t₃ : Int} {lines lines' : List (Int × Int)}
    (h₁ : Accepts limit t₁ lines t₂) (h₂ : Accepts limit t₂ lines' t₃) :
    Accepts limit t₁ (lines ++ lines') t₃ := by
  induction h₁ with
  | nil => exact h₂
  | cons hpos hsize hsum _ ih => exact .cons hpos hsize hsum (ih h₂)

theorem toInt32_le (z : Int) : toInt32 z ≤ int32Max := by
  unfold toInt32 int32Max
  rw [Int.bmod_def]
  split <;> omega

/-- The sums of accepted sizes are exact as long as they fit. -/
theorem Accepts.sums_iff {limit total total' : Int} {lines : List (Int × Int)}
    (haccepts : Accepts limit total lines total') (hnonneg : 0 ≤ total) :
    ExactSums limit total lines ↔ SumsFit total lines := by
  induction haccepts with
  | nil => exact Iff.rfl
  | @cons total total' size lines hpos hsize hsum hlines ih =>
    rw [ExactSums, SumsFit]
    by_cases hfit : total + size ≤ int32Max
    · have hexact : toInt32 (total + size) = total + size := toInt32_of_range (by omega) hfit
      rw [hexact] at hsum ih ⊢
      rw [ih (by omega)]
      constructor
      · exact fun h => ⟨hfit, h.2.2⟩
      · exact fun h => ⟨rfl, hsum, h.2⟩
    · -- the sum has wrapped
      have hwrapped := toInt32_le (total + size)
      exact iff_of_false (fun h => hfit (by omega)) fun h => hfit h.1

/-- Below half of the range no sum of accepted sizes leaves it. -/
theorem Accepts.sumsFit {limit total total' : Int} {lines : List (Int × Int)}
    (haccepts : Accepts limit total lines total') (hlimit : limit < 2 ^ 30) (hnonneg : 0 ≤ total)
    (hle : total ≤ max 0 limit) : SumsFit total lines := by
  induction haccepts with
  | nil => trivial
  | @cons total total' size lines hpos hsize hsum hlines ih =>
    have hfit : total + size ≤ int32Max := by
      unfold int32Max
      omega
    have hexact : toInt32 (total + size) = total + size := toInt32_of_range (by omega) hfit
    rw [hexact] at hsum ih
    exact ⟨hfit, ih (by omega) (by omega)⟩

/-! ## What the readers accept -/

/-- The call is not the last one: the body goes on, and nothing was refused. -/
def Continues (r : Ret × Handler) : Prop :=
  r.1 = .reqContinue ∧ r.2.context.response.statusCode = statusNone

/-- The limit and the sum stay as they are, so that nothing was accepted in between. -/
structure KeepsSum (h h' : Handler) : Prop where
  maxBodySize : h'.maxBodySize = h.maxBodySize
  total : h'.request.contentTotalLength = h.request.contentTotalLength

theorem not_continues_refuseBody (ret : Ret) (h : Handler) {code : Nat} (hcode : code ≠ statusNone) :
    ¬ Continues (ret, h.refuseBody code) :=
  fun hcontinues => hcode hcontinues.2

/-- Saving a body sets a status. -/
theorem not_continues_finishBody (sys : Sys) (h : Handler) : ¬ Continues (finishBody sys h) := by
  unfold finishBody
  cases hcgi : h.clearBuffer.request.cgiPath with
  | none =>
    rw [saveFile_of_file sys hcgi]
    dsimp only
    rw [bodyRet_publish sys hcgi]
    exact fun hcontinues => nomatch hcontinues.1
  | some path =>
    rcases saveFile_of_cgi sys (h := h.clearBuffer) (by rw [hcgi]; rfl) with hsave | hsave
    · rw [hsave]
      exact fun hcontinues => absurd hcontinues.2 (show statusOk ≠ statusNone by decide)
    · rw [hsave]
      exact fun hcontinues => nomatch hcontinues.1

theorem keepsSum_readEndOfChunk {x : Round} (hx : readEndOfChunk h = x) :
    (∀ h', x = .ok h' → KeepsSum h h') ∧ ∀ r, x = .error r → Continues r → KeepsSum h r.2 := by
  subst hx
  unfold readEndOfChunk
  dsimp only
  split_ifs
  · cases BinaryBuffer.rfind h.context.buffer crlf 0 with
    | none =>
      refine ⟨(fun _ heq => nomatch heq), fun r heq hcontinues => ?_⟩
      cases heq
      exact absurd hcontinues (not_continues_refuseBody _ h (by decide))
    | some pos =>
      refine ⟨fun h' heq => ?_, (fun _ heq => nomatch heq)⟩
      cases heq
      exact ⟨rfl, rfl⟩
  · refine ⟨(fun _ heq => nomatch heq), fun r heq hcontinues => ?_⟩
    cases heq
    exact absurd hcontinues (not_continues_refuseBody _ h (by decide))
  · refine ⟨(fun _ heq => nomatch heq), fun r heq _ => ?_⟩
    cases heq
    exact ⟨rfl, rfl⟩
  · refine ⟨fun h' heq => ?_, (fun _ heq => nomatch heq)⟩
    cases heq
    exact ⟨rfl, rfl⟩

theorem keepsSum_readEndOfTransfer (hcontinues : Continues (readEndOfTransfer sys h)) :
    KeepsSum h (readEndOfTransfer sys h).2 := by
  revert hcontinues
  unfold readEndOfTransfer
  split_ifs
  · exact fun hcontinues => absurd hcontinues (not_continues_finishBody sys h)
  · exact fun _ => ⟨rfl, rfl⟩
  · exact fun hcontinues => absurd hcontinues (not_continues_refuseBody _ h (by decide))

/-- A size line is accepted with the sum that it makes, or the call goes on with the sum as it was. -/
theorem accepts_readChunkSize (hsize : h.request.contentLength = -1) :
    (∀ h', readChunkSize sys h = .ok h' → h'.maxBodySize = h.maxBodySize ∧
      Accepts h.maxBodySize h.request.contentTotalLength
        [(h'.request.contentLength, h'.request.contentTotalLength)] h'.request.contentTotalLength) ∧
      ∀ r, readChunkSize sys h = .error r → Continues r → KeepsSum h r.2 := by
  cases hfind : BinaryBuffer.find h.context.buffer crlf with
  | none =>
    rw [readChunkSize_of_none sys hsize hfind]
    refine ⟨(fun _ heq => nomatch heq), fun r heq _ => ?_⟩
    cases heq
    exact ⟨rfl, rfl⟩
  | some pos =>
    rw [readChunkSize_of_find sys hsize hfind rfl rfl]
    have hle := le_sToContentLength (BinaryBuffer.substr h.context.buffer 0 pos) true
    generalize sToContentLength (BinaryBuffer.substr h.context.buffer 0 pos) true = m at hle ⊢
    have hrefused : ∀ (h' : Handler) {code : Nat}, code ≠ statusNone → ∀ r,
        (.error (h.bodyRet, h'.refuseBody code) : Round) = .error r → Continues r → KeepsSum h r.2 := by
      rintro h' code hcode r heq hcontinues
      cases heq
      exact absurd hcontinues (not_continues_refuseBody _ h' hcode)
    split_ifs with hline hinvalid hzero hexceeds
    · exact ⟨(fun _ heq => nomatch heq), hrefused h (by decide)⟩
    · exact ⟨(fun _ heq => nomatch heq), hrefused (h.setContentLength m) (by decide)⟩
    · refine ⟨(fun _ heq => nomatch heq), fun r heq hcontinues => ?_⟩
      cases heq
      obtain ⟨hmax, htotal⟩ := keepsSum_readEndOfTransfer hcontinues
      exact ⟨hmax, htotal⟩
    · exact ⟨(fun _ heq => nomatch heq), hrefused (h.startChunk pos m) (by decide)⟩
    · refine ⟨fun h' heq => ?_, (fun _ heq => nomatch heq)⟩
      cases heq
      refine ⟨rfl, ?_⟩
      unfold ExceedsLimit contentLengthTooLarge at hexceeds
      unfold contentLengthInvalid at hinvalid
      exact .cons (show 0 < m by omega) (show m ≤ h.maxBodySize by omega)
        (show toInt32 (h.request.contentTotalLength + m) ≤ h.maxBodySize by omega) (.nil _)

theorem keepsSum_readChunk {h' : Handler} (hread : readChunk sys h = .ok h') : KeepsSum h h' := by
  unfold readChunk at hread
  dsimp only at hread
  split_ifs at hread
  · have hsame := (sameCounters_writeChunk sys h (toSize h.request.contentLength)).1
    generalize writeChunk sys h (toSize h.request.contentLength) = w at hsame hread
    obtain ⟨ret, h₁⟩ := w
    cases ret <;> cases hread <;> exact ⟨hsame.maxBodySize, hsame.contentTotalLength⟩
  · have hsame := (sameCounters_writeChunk sys h h.context.buffer.length).1
    generalize writeChunk sys h h.context.buffer.length = w at hsame hread
    obtain ⟨ret, h₁⟩ := w
    cases ret <;> cases hread <;> exact ⟨hsame.maxBodySize, hsame.contentTotalLength⟩

/-- A round accepts at most one size line.  The sum is checked there and nowhere else, which makes the round
the unit of the induction. -/
theorem accepts_readRound (sys : Sys) (h : Handler) :
    ∃ total, Accepts h.maxBodySize h.request.contentTotalLength (acceptedRound sys h) total ∧
      (∀ h', readRound sys h = .ok h' →
        h'.maxBodySize = h.maxBodySize ∧ h'.request.contentTotalLength = total) ∧
      ∀ r, readRound sys h = .error r → Continues r →
        r.2.maxBodySize = h.maxBodySize ∧ r.2.request.contentTotalLength = total := by
  unfold acceptedRound
  cases hend : readEndOfChunk h with
  | error r =>
    rw [readRound_of_error hend]
    refine ⟨_, .nil _, (fun _ heq => nomatch heq), fun r' heq hcontinues => ?_⟩
    cases heq
    obtain ⟨hmax, htotal⟩ := (keepsSum_readEndOfChunk hend).2 r rfl hcontinues
    exact ⟨hmax, htotal⟩
  | ok h₁ =>
    obtain ⟨hmax₁, htotal₁⟩ := (keepsSum_readEndOfChunk hend).1 h₁ rfl
    rw [readRound_of_ok hend]
    dsimp only
    by_cases hsize : h₁.request.contentLength = -1
    · rw [if_pos hsize, ← hmax₁, ← htotal₁]
      obtain ⟨hline, hnoLine⟩ := @accepts_readChunkSize sys h₁ hsize
      cases hnext : readChunkSize sys h₁ with
      | error r =>
        refine ⟨_, .nil _, (fun _ heq => nomatch heq), fun r' heq hcontinues => ?_⟩
        cases heq
        obtain ⟨hmax, htotal⟩ := hnoLine r hnext hcontinues
        exact ⟨hmax, htotal⟩
      | ok h₂ =>
        obtain ⟨hmax₂, haccepts⟩ := hline h₂ hnext
        have hchunk : (Except.ok h₂ >>= readChunk sys : Round) = readChunk sys h₂ := pure_bind h₂ _
        rw [hchunk]
        refine ⟨_, haccepts, fun h' heq => ?_, fun r heq hcontinues => ?_⟩
        · obtain ⟨hmax, htotal⟩ := keepsSum_readChunk heq
          exact ⟨hmax.trans hmax₂, htotal⟩
        · have herror := readChunk_error heq
          rw [hcontinues.1] at herror
          cases herror
    · have hok : readChunkSize sys h₁ = .ok h₁ := if_neg hsize
      have hchunk : (Except.ok h₁ >>= readChunk sys : Round) = readChunk sys h₁ := pure_bind h₁ _
      rw [if_neg hsize, hok, hchunk]
      refine ⟨_, .nil _, fun h' heq => ?_, fun r heq hcontinues => ?_⟩
      · obtain ⟨hmax, htotal⟩ := keepsSum_readChunk heq
        exact ⟨hmax.trans hmax₁, htotal.trans htotal₁⟩
      · have herror := readChunk_error heq
        rw [hcontinues.1] at herror
        cases herror

/-- The loop, by induction on the rounds.  The counter at the end of one round is the one that the next
round starts from. -/
theorem accepts_acceptedLoop (sys : Sys) (n : Nat) (h : Handler) :
    ∃ total, Accepts h.maxBodySize h.request.contentTotalLength (acceptedLoop sys n h) total ∧
      (Continues (readChunkedLoop sys n h) →
        (readChunkedLoop sys n h).2.maxBodySize = h.maxBodySize ∧
          (readChunkedLoop sys n h).2.request.contentTotalLength = total) := by
  induction n generalizing h with
  | zero => exact ⟨_, .nil _, fun _ => ⟨rfl, rfl⟩⟩
  | succ n ih =>
    rw [acceptedLoop, readChunkedLoop]
    by_cases hnil : h.context.buffer = []
    · rw [if_pos hnil, if_pos hnil]
      exact ⟨_, .nil _, fun _ => ⟨rfl, rfl⟩⟩
    · rw [if_neg hnil, if_neg hnil]
      obtain ⟨total, haccepts, hok, herror⟩ := accepts_readRound sys h
      cases hround : readRound sys h with
      | error r =>
        dsimp only
        rw [List.append_nil]
        exact ⟨total, haccepts, herror r hround⟩
      | ok h₁ =>
        obtain ⟨hmax, htotal⟩ := hok h₁ hround
        obtain ⟨total', haccepts', hcontinues⟩ := ih h₁
        rw [hmax, htotal] at haccepts'
        rw [hmax] at hcontinues
        exact ⟨total', haccepts.append haccepts', hcontinues⟩

/-- The calls, by induction on the reads.  Between two calls nothing touches the counter. -/
theorem accepts_acceptedLines (h : Handler) (calls : List (Sys × Bytes)) :
    ∃ total, Accepts h.maxBodySize h.request.contentTotalLength (acceptedLines h calls) total := by
  induction calls generalizing h with
  | nil => exact ⟨_, .nil _⟩
  | cons call calls ih =>
    obtain ⟨sys, read⟩ := call
    rw [acceptedLines]
    obtain ⟨total, haccepts, hcontinues⟩ :=
      accepts_acceptedLoop sys (h.receiveRead read).context.buffer.length (h.receiveRead read)
    rw [← readChunked] at hcontinues
    generalize readChunked sys (h.receiveRead read) = r at hcontinues ⊢
    obtain ⟨ret, h'⟩ := r
    -- a last call adds nothing
    have hlast : ∃ total, Accepts h.maxBodySize h.request.contentTotalLength
        (acceptedLoop sys (h.receiveRead read).context.buffer.length (h.receiveRead read) ++ []) total := by
      rw [List.append_nil]
      exact ⟨total, haccepts⟩
    cases ret with
    | reqContinue =>
      dsimp only
      by_cases hnone : h'.context.response.statusCode = statusNone
      · rw [if_pos hnone]
        obtain ⟨hmax, htotal⟩ := hcontinues ⟨rfl, hnone⟩
        obtain ⟨total', haccepts'⟩ := ih h'
        have hmax' : h'.maxBodySize = h.maxBodySize := hmax
        have htotal' : h'.request.contentTotalLength = total := htotal
        rw [hmax', htotal'] at haccepts'
        exact ⟨total', haccepts.append haccepts'⟩
      · rw [if_neg hnone]
        exact hlast
    | reqDone => exact hlast
    | reqError => exact hlast
    | throws => exact hlast

/-- **Chunk accounting.**  The sums after the accepted size lines are the sums of the sizes, within the
limit, exactly when no such sum exceeds an `int32_t`. -/
theorem exactSums_iff {h : Handler} (hstart : h.request.contentTotalLength = 0) (calls : List (Sys × Bytes)) :
    ExactSums h.maxBodySize 0 (acceptedLines h calls) ↔ SumsFit 0 (acceptedLines h calls) := by
  obtain ⟨total, haccepts⟩ := accepts_acceptedLines h calls
  rw [hstart] at haccepts
  exact haccepts.sums_iff (by omega)

/-- With a limit below half of the range that is always so, because two numbers within the limit have a sum
that fits. -/
theorem exactSums_of_lt {h : Handler} (hstart : h.request.contentTotalLength = 0)
    (hlimit : h.maxBodySize < 2 ^ 30) (calls : List (Sys × Bytes)) :
    ExactSums h.maxBodySize 0 (acceptedLines h calls) := by
  obtain ⟨total, haccepts⟩ := accepts_acceptedLines h calls
  rw [hstart] at haccepts
  exact (haccepts.sums_iff (by omega)).mpr (haccepts.sumsFit hlimit (by omega) (by omega))

/-- A chunk of a body for a script of which `n` bytes are still to come. -/
structure ExpectsData (h : Handler) (n : Nat) : Prop where
  cgiPath : h.request.cgiPath.isSome = true
  cgiSocket : h.context.cgiSocket ≠ -1
  status : h.context.response.statusCode = statusNone
  buffer : h.context.buffer = []
  contentLength : h.request.contentLength = n

/-- A byte of a chunk. -/
theorem readChunked_byte {n : Nat} (hexpects : h.ExpectsData (n + 1)) (hn : (n : Int) + 1 ≤ int32Max)
    (c : Byte) :
    acceptedLoop (Sys.quiet 0) 1 (h.receiveRead [c]) = [] ∧
      ∃ h', readChunked (Sys.quiet 0) (h.receiveRead [c]) = (.reqContinue, h') ∧ KeepsSum h h' ∧
        h'.ExpectsData n := by
  obtain ⟨path, hpath⟩ := Option.isSome_iff_exists.mp hexpects.cgiPath
  have hbuffer : (h.receiveRead [c]).context.buffer = [c] := by
    rw [receiveRead, hexpects.buffer]
    rfl
  have hcounter : (h.receiveRead [c]).request.contentLength = n + 1 := hexpects.contentLength
  have hsize : (h.receiveRead [c]).request.contentLength ≠ -1 := by omega
  have hend : readEndOfChunk (h.receiveRead [c]) = .ok (h.receiveRead [c]) := if_neg (by omega)
  have hline : readChunkSize (Sys.quiet 0) (h.receiveRead [c]) = .ok (h.receiveRead [c]) := if_neg hsize
  -- the byte is sent, and counted
  have hshort : ¬ toInt32 ([c] : Bytes).length > (n : Int) + 1 := by
    have hone : toInt32 (([c] : Bytes).length : Int) = 1 := by
      show toInt32 1 = 1
      decide
    omega
  have hwrite : ∃ call, writeChunk (Sys.quiet 0) (h.receiveRead [c]) ([c] : Bytes).length =
      (.reqContinue, { h.receiveRead [c] with context := (h.receiveRead [c]).context.record call }) := by
    have hpath' : (h.receiveRead [c]).request.cgiPath = some path := hpath
    have hsocket : ¬ (h.receiveRead [c]).context.cgiSocket = -1 := hexpects.cgiSocket
    rw [writeChunk, hpath']
    dsimp only
    rw [sendCGI, if_neg hsocket]
    exact ⟨_, rfl⟩
  obtain ⟨call, hwrite⟩ := hwrite
  let h' := Handler.consumeBuffer
    { h.receiveRead [c] with context := (h.receiveRead [c]).context.record call }
  have hround : readRound (Sys.quiet 0) (h.receiveRead [c]) = .ok h' := by
    have hchunk : (Except.ok (h.receiveRead [c]) >>= readChunk (Sys.quiet 0) : Round) =
        readChunk (Sys.quiet 0) (h.receiveRead [c]) := pure_bind _ _
    rw [readRound_of_ok hend, hline, hchunk, readChunk, hbuffer, hcounter, if_neg hshort, hwrite]
    rfl
  have hrest : toInt32 ((h.receiveRead [c]).request.contentLength - ([c] : Bytes).length) = n := by
    rw [hcounter]
    have hlength : ((([c] : Bytes).length : Nat) : Int) = 1 := rfl
    rw [hlength, Int.add_sub_cancel]
    exact toInt32_of_range (by omega) (by omega)
  constructor
  · rw [acceptedLoop, hbuffer, if_neg (List.cons_ne_nil _ _), hround, acceptedRound, hend]
    show (if (h.receiveRead [c]).request.contentLength = -1 then _ else []) ++ [] = []
    rw [if_neg hsize]
    rfl
  · refine ⟨h', ?_, ⟨rfl, rfl⟩, ⟨hexpects.cgiPath, hexpects.cgiSocket, hexpects.status, rfl, ?_⟩⟩
    · rw [readChunked, hbuffer]
      show readChunkedLoop (Sys.quiet 0) 1 _ = _
      rw [readChunkedLoop, hbuffer, if_neg (List.cons_ne_nil _ _), hround]
      exact readChunkedLoop_of_nil _ 0 rfl
    · show toInt32 ((h.receiveRead [c]).request.contentLength - (h.receiveRead [c]).context.buffer.length) = n
      rw [hbuffer]
      exact hrest

/-- The data of a chunk, a byte at a time: nothing is accepted, and the end of the chunk comes next. -/
theorem acceptedLines_data {n : Nat} (hexpects : h.ExpectsData n) (hn : (n : Int) ≤ int32Max) (c : Byte)
    (calls : List (Sys × Bytes)) :
    ∃ h', acceptedLines h (List.replicate n (Sys.quiet 0, [c]) ++ calls) = acceptedLines h' calls ∧
      KeepsSum h h' ∧ h'.ExpectsData 0 := by
  induction n generalizing h with
  | zero => exact ⟨h, rfl, ⟨rfl, rfl⟩, hexpects⟩
  | succ n ih =>
    obtain ⟨hnone, h₁, hread, hkeeps, hnext⟩ := readChunked_byte hexpects (by omega) c
    obtain ⟨h', heq, hkeeps', hzero⟩ := ih hnext (by omega)
    refine ⟨h', ?_, ⟨hkeeps'.maxBodySize.trans hkeeps.maxBodySize, hkeeps'.total.trans hkeeps.total⟩, hzero⟩
    have hlength : (h.receiveRead [c]).context.buffer.length = 1 := by
      rw [receiveRead, hexpects.buffer]
      rfl
    rw [List.replicate_succ, List.cons_append, acceptedLines, hlength, hnone, hread, List.nil_append]
    dsimp only
    rw [if_pos hnext.status, heq]

/-- The end of a chunk with the next size line: the line end is dropped, and the size is looked at. -/
theorem acceptedLoop_nextSize {n : Nat} {line : Bytes} {m : Int} (hexpects : h.ExpectsData 0) (hcr : cr ∉ line)
    (hne : line ≠ []) (hm : sToContentLength line true = m) (hpos : 0 < m) (hle : m ≤ h.maxBodySize)
    (hsum : toInt32 (h.request.contentTotalLength + m) ≤ h.maxBodySize) :
    ∃ lines, acceptedLoop sys (n + 1) (h.receiveRead (crlf ++ (line ++ crlf))) =
      (m, toInt32 (h.request.contentTotalLength + m)) :: lines := by
  have hbuffer : (h.receiveRead (crlf ++ (line ++ crlf))).context.buffer = crlf ++ (line ++ crlf) := by
    rw [receiveRead, hexpects.buffer]
    rfl
  have hcounter : (h.receiveRead (crlf ++ (line ++ crlf))).request.contentLength = 0 := hexpects.contentLength
  let h₁ := ((h.receiveRead (crlf ++ (line ++ crlf))).eraseBuffer 2).setContentLength (-1)
  have hend : readEndOfChunk (h.receiveRead (crlf ++ (line ++ crlf))) = .ok h₁ := by
    have hlong : (crlf ++ (line ++ crlf)).length ≥ 2 := by simp [crlf]
    have hprefix : crlf.isPrefixOf (crlf ++ (line ++ crlf)) = true :=
      List.isPrefixOf_iff_prefix.mpr (List.prefix_append _ _)
    rw [readEndOfChunk, if_pos hcounter, hbuffer, if_pos hlong, BinaryBuffer.rfind_zero (by decide),
      if_pos hprefix]
    rfl
  have hunread : h₁.context.buffer = line ++ crlf ++ [] := by
    show BinaryBuffer.erase (h.receiveRead (crlf ++ (line ++ crlf))).context.buffer 0 2 = _
    rw [hbuffer, BinaryBuffer.erase_zero, List.append_nil]
    rfl
  have hfind : BinaryBuffer.find h₁.context.buffer crlf = some line.length := by
    rw [hunread]
    exact find_line hcr []
  have hline : BinaryBuffer.substr h₁.context.buffer 0 line.length = line := by
    rw [hunread, BinaryBuffer.substr_zero, List.append_assoc, List.take_left]
  have hinvalid : m ≠ contentLengthInvalid := by
    unfold contentLengthInvalid
    omega
  have hexceeds : ¬ h₁.ExceedsLimit m := by
    rintro (hlarge | hlarge | hlarge)
    · unfold contentLengthTooLarge at hlarge
      omega
    · exact absurd hle (Int.not_le.mpr hlarge)
    · exact absurd hsum (Int.not_le.mpr hlarge)
  have hsize : readChunkSize sys h₁ = .ok (h₁.startChunk line.length m) := by
    rw [readChunkSize_of_find sys rfl hfind hline hm, if_neg hne, if_neg hinvalid, if_neg (by omega),
      if_neg hexceeds]
  have hround : acceptedRound sys (h.receiveRead (crlf ++ (line ++ crlf))) =
      [(m, toInt32 (h.request.contentTotalLength + m))] := by
    rw [acceptedRound, hend]
    show (if h₁.request.contentLength = -1 then _ else []) = _
    rw [if_pos (show h₁.request.contentLength = -1 from rfl), hsize]
    rfl
  rw [acceptedLoop, hbuffer, if_neg (by simp [crlf]), hround]
  exact ⟨_, rfl⟩

/-- The calls of a body with two chunks of the largest size, up to the second size line. -/
def twoFullChunks : List (Sys × Bytes) :=
  (Sys.quiet 0, bytes "7FFFFFFF\r\n") ::
    (List.replicate 2147483647 (Sys.quiet 0, [97]) ++ [(Sys.quiet 0, bytes "\r\n7FFFFFFF\r\n")])

/-- A client that may send as much as an `int32_t` counts. -/
def fullPost : Handler := limitedPost 2147483647 (by decide) []

set_option maxRecDepth 10000 in
/-- A chunk of a byte, and the next size line. -/
theorem exactSums_iff_small :
    fullPost.request.contentTotalLength = 0 ∧
      (ExactSums fullPost.maxBodySize 0 (acceptedLines fullPost
        [(Sys.quiet 0, bytes "1\r\na"), (Sys.quiet 0, bytes "\r\nA\r\n")]) ↔
          SumsFit 0 (acceptedLines fullPost
            [(Sys.quiet 0, bytes "1\r\na"), (Sys.quiet 0, bytes "\r\nA\r\n")])) ∧
      acceptedLines fullPost [(Sys.quiet 0, bytes "1\r\na"), (Sys.quiet 0, bytes "\r\nA\r\n")] =
        [(1, 1), (10, 11)] :=
  ⟨rfl, exactSums_iff rfl _, by decide +kernel⟩

set_option maxRecDepth 10000 in
/-- Two chunks of the largest size: the sum wraps to `-2`, which is below the limit. -/
theorem not_exactSums :
    (∃ lines, acceptedLines fullPost twoFullChunks =
      (2147483647, 2147483647) :: (2147483647, -2) :: lines) ∧
      ¬ ExactSums fullPost.maxBodySize 0 (acceptedLines fullPost twoFullChunks) := by
  have hlines : ∃ lines, acceptedLines fullPost twoFullChunks =
      (2147483647, 2147483647) :: (2147483647, -2) :: lines := by
    rw [twoFullChunks, acceptedLines]
    have hfirst : acceptedLoop (Sys.quiet 0) (fullPost.receiveRead (bytes "7FFFFFFF\r\n")).context.buffer.length
        (fullPost.receiveRead (bytes "7FFFFFFF\r\n")) = [(2147483647, 2147483647)] := by decide +kernel
    have hret : (readChunked (Sys.quiet 0) (fullPost.receiveRead (bytes "7FFFFFFF\r\n"))).1 = .reqContinue := by
      decide +kernel
    have hexpects : (readChunked (Sys.quiet 0)
        (fullPost.receiveRead (bytes "7FFFFFFF\r\n"))).2.ExpectsData 2147483647 :=
      ⟨by decide +kernel, by decide +kernel, by decide +kernel, by decide +kernel, by decide +kernel⟩
    have hmax : (readChunked (Sys.quiet 0)
        (fullPost.receiveRead (bytes "7FFFFFFF\r\n"))).2.maxBodySize = 2147483647 := by decide +kernel
    have htotal : (readChunked (Sys.quiet 0)
        (fullPost.receiveRead (bytes "7FFFFFFF\r\n"))).2.request.contentTotalLength = 2147483647 := by
      decide +kernel
    rw [hfirst]
    generalize readChunked (Sys.quiet 0) (fullPost.receiveRead (bytes "7FFFFFFF\r\n")) = r
      at hret hexpects hmax htotal ⊢
    obtain ⟨ret, h⟩ := r
    obtain rfl : ret = .reqContinue := hret
    obtain ⟨h', hdata, hkeeps, hzero⟩ := acceptedLines_data hexpects (by decide) 97
      [(Sys.quiet 0, bytes "\r\n7FFFFFFF\r\n")]
    have hmax' : h'.maxBodySize = 2147483647 := hkeeps.maxBodySize.trans hmax
    have htotal' : h'.request.contentTotalLength = 2147483647 := hkeeps.total.trans htotal
    have hsum : toInt32 (h'.request.contentTotalLength + 2147483647) = -2 := by
      rw [htotal']
      decide +kernel
    obtain ⟨lines, hnext⟩ := @acceptedLoop_nextSize (Sys.quiet 0) h' 11 (bytes "7FFFFFFF") 2147483647 hzero
      (by decide) (by decide) (by decide +kernel) (by decide) (Int.le_of_eq hmax'.symm)
      (by rw [hsum, hmax']; decide)
    have hlength : (h'.receiveRead (bytes "\r\n7FFFFFFF\r\n")).context.buffer.length = 12 := by
      rw [receiveRead, hzero.buffer]
      rfl
    have hread : (bytes "\r\n7FFFFFFF\r\n") = crlf ++ (bytes "7FFFFFFF" ++ crlf) := by decide
    dsimp only
    rw [if_pos hexpects.status, hdata, acceptedLines, hlength]
    rw [hread] at hlength ⊢
    rw [hnext, hsum]
    exact ⟨_, rfl⟩
  refine ⟨hlines, fun hexact => ?_⟩
  obtain ⟨lines, hlines⟩ := hlines
  rw [hlines] at hexact
  exact absurd hexact.2.2.1 (by decide)

end Handler
end Webserv
