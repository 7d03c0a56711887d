import Webserv.CgiResponse

/-!
# Malformed heads of a CGI

`_parseCGIHeaders` answers a line without `": "` with a rendered 500 and sets `CGI_HEADERS` and `CGI_IN`.
`_readCGI` takes `CGI_HEADERS` for a head that was accepted, and forwards what is left in the read buffer:
what follows the line in the same read goes to the client behind the 500.

* `HasBadLine`, `BadText`: an output with such a line, and its first one.
* `Waiting`, `Refused`: before the line was read, and after.
* `waiting_readCGI`: what one read does.
* `placesErrorHead_iff`: when the 500 is all that the client gets.

## Why the reads decide

The flag `CGI_HEADERS` says that the head is over, and does not say how.  After `_parseCGIHeaders` the
caller looks at it and appends the rest of the buffer to the output: after a good head this is the beginning
of the body.  After a bad line it is whatever has arrived behind the line, so the same output of a CGI gives
a clean 500 or one with rubbish behind it.  It is clean when the read ends where the bad line ends.
`CGI_IN` is set as well, so later reads are not looked at, and the rubbish is never more than what came in
that one packet.

## How the parser is followed

An output with a bad line is cut into its header lines, the first line that is none, and the rest
(`BadText`); every such output can be written so, and this is how the parser reads it.  A read is a step of
an invariant.  While `Waiting`, the lines in front are gathered one by one, and fewer bytes than the end of
the bad line have arrived.  The packet that brings this end leads to `Refused`, with the bytes behind it in
this packet as `extra`; then nothing changes any more.  If the bad line is the last one and has no end, it
is awaited until the CGI closes its side, and the 500 comes from there, with nothing behind it.
-/

namespace Webserv

/-! ## Bad lines -/

/-- Lines with their ends. -/
def joinLines (lines : List Bytes) : Bytes := lines.flatMap fun line => line ++ crlf

/-- Some line before the first empty line has no `": "`.  The last line may lack its end, which
`_parseCGIHeaders` awaits. -/
def HasBadLine (out : Bytes) : Prop :=
  ∃ (before : List Bytes) (bad rest : Bytes), out = joinLines before ++ (bad ++ rest) ∧
    (∀ line ∈ before, line ≠ [] ∧ ¬ crlf <:+: line) ∧ bad ≠ [] ∧ ¬ crlf <:+: bad ∧
      ¬ bytes ": " <:+: bad ∧ (rest = [] ∨ crlf <+: rest)

/-- An output with a bad line: header lines, the first line that is none, and what follows its end, if it
has one. -/
structure BadText where
  fields : List (Bytes × Bytes)
  bad : Bytes
  rest : Option Bytes
  key : ∀ f ∈ fields, ¬ bytes ": " <:+: f.1
  line : ∀ f ∈ fields, ¬ crlf <:+: headerLine f
  bad_ne_nil : bad ≠ []
  bad_line : ¬ crlf <:+: bad
  bad_key : ¬ bytes ": " <:+: bad

namespace BadText

variable (t : BadText)

/-- The bytes up to the end of the bad line. -/
def start : Bytes := headerLines t.fields ++ (t.bad ++ crlf)

/-- The bytes from the bad line on: the line without a `": "`, its end if it has one, and whatever follows. -/
def tail : Bytes :=
  match t.rest with
  | none => t.bad
  | some rest => t.bad ++ (crlf ++ rest)

/-- The bytes that the CGI writes. -/
def stream : Bytes := headerLines t.fields ++ t.tail

/-- One more header line before the others. -/
def cons (f : Bytes × Bytes) (hkey : ¬ bytes ": " <:+: f.1) (hline : ¬ crlf <:+: headerLine f) : BadText :=
  { t with
    fields := f :: t.fields
    key := List.forall_mem_cons.mpr ⟨hkey, t.key⟩
    line := List.forall_mem_cons.mpr ⟨hline, t.line⟩ }

theorem stream_cons (f : Bytes × Bytes) (hkey : ¬ bytes ": " <:+: f.1)
    (hline : ¬ crlf <:+: headerLine f) : (t.cons f hkey hline).stream = headerLine f ++ crlf ++ t.stream := by
  show headerLines (f :: t.fields) ++ t.tail = _
  rw [headerLines_cons, stream]
  simp only [List.append_assoc]

end BadText

/-- A line with `": "` is a header line. -/
theorem exists_headerLine {line : Bytes} (h : bytes ": " <:+: line) :
    ∃ f : Bytes × Bytes, line = headerLine f ∧ ¬ bytes ": " <:+: f.1 := by
  have hne : bytes ": " ≠ [] := by decide
  cases hfind : Search.findSub (bytes ": ") line with
  | none => exact absurd h (Search.findSub_eq_none_iff.mp hfind)
  | some pos =>
    refine ⟨(line.take pos, line.drop (pos + (bytes ": ").length)), ?_, ?_⟩
    · exact (Search.eq_take_append_of_findSub hfind).trans (List.append_assoc ..).symm
    · exact Search.findSub_eq_none_iff.mp (Search.findSub_take hne hfind)

/-- Every output with a bad line has a first one. -/
theorem HasBadLine.exists_badText {out : Bytes} (h : HasBadLine out) : ∃ t : BadText, t.stream = out := by
  obtain ⟨before, bad, rest, rfl, hbefore, hne, hbad, hkey, hrest⟩ := h
  induction before with
  | nil =>
    rcases hrest with rfl | ⟨rest, rfl⟩
    · exact ⟨⟨[], bad, none, by simp, by simp, hne, hbad, hkey⟩, (List.append_nil bad).symm⟩
    · exact ⟨⟨[], bad, some rest, by simp, by simp, hne, hbad, hkey⟩, rfl⟩
  | cons line before ih =>
    obtain ⟨hline, hothers⟩ := List.forall_mem_cons.mp hbefore
    have hcons : joinLines (line :: before) ++ (bad ++ rest) =
        line ++ crlf ++ (joinLines before ++ (bad ++ rest)) := by
      rw [joinLines, List.flatMap_cons, List.append_assoc]
      rfl
    by_cases hcolon : bytes ": " <:+: line
    · obtain ⟨t, ht⟩ := ih hothers
      obtain ⟨f, rfl, hf⟩ := exists_headerLine hcolon
      exact ⟨t.cons f hf hline.2, by rw [t.stream_cons, ht, hcons]⟩
    · refine ⟨⟨[], line, some (joinLines before ++ (bad ++ rest)), by simp, by simp, hline.1, hline.2,
        hcolon⟩, ?_⟩
      rw [hcons, List.append_assoc]
      rfl

/-! ## Reading a bad output -/

/-- The response head with status 500, and nothing else. -/
def errorHead : Bytes := bytes "HTTP/1.1 500 Internal Server Error\r\n\r\n"

namespace Handler

theorem responseBuffer_renderError (h : Handler) : h.renderError.context.responseBuffer = errorHead := by
  have hhead : (({} : Response).setStatusCode statusInternalServerError).response = errorHead := by decide
  exact hhead

/-- Before the bad line was read: `sofar` has arrived, and `future` is still to come. -/
structure Waiting (t : BadText) (h : Handler) (sofar future : Bytes) (done todo : List (Bytes × Bytes)) :
    Prop where
  fields : t.fields = done ++ todo
  arrived : sofar = headerLines done ++ h.request.readBuffer
  unread : h.request.readBuffer ++ future = headerLines todo ++ t.tail
  no_line : ¬ crlf <:+: h.request.readBuffer
  cgiIn : h.context.requestState.cgiIn = false
  cgiHeaders : h.context.requestState.cgiHeaders = false
  out : h.context.responseBuffer = []

/-- After the bad line was read, with `extra` behind it in the same read. -/
structure Refused (t : BadText) (h : Handler) (extra : Bytes) : Prop where
  terminated : t.rest ≠ none
  cgiIn : h.context.requestState.cgiIn = true
  out : h.context.responseBuffer = errorHead ++ extra

/-- As long as the line is awaited, less has arrived than its end. -/
theorem Waiting.length_lt {t : BadText} {h : Handler} {sofar future : Bytes}
    {done todo : List (Bytes × Bytes)} (hwaiting : Waiting t h sofar future done todo) :
    sofar.length < t.start.length := by
  have hstart : t.start = headerLines done ++ (headerLines todo ++ (t.bad ++ crlf)) := by
    rw [BadText.start, hwaiting.fields, headerLines_append, List.append_assoc]
  rw [hwaiting.arrived, hstart, List.length_append, List.length_append]
  refine Nat.add_lt_add_left ?_ _
  by_contra hlong
  have hunread := hwaiting.unread
  unfold BadText.tail at hunread
  cases hrest : t.rest with
  | none =>
    rw [hrest] at hunread
    have hlength := congrArg List.length hunread
    simp only [List.length_append, List.length_cons] at hlength hlong
    omega
  | some rest =>
    rw [hrest] at hunread
    dsimp only at hunread
    have hprefix : headerLines todo ++ (t.bad ++ crlf) <+: h.request.readBuffer := by
      refine List.prefix_of_prefix_length_le ?_ (List.prefix_append _ future) (Nat.not_lt.mp hlong)
      rw [hunread]
      exact ⟨rest, by simp⟩
    refine hwaiting.no_line (List.IsInfix.trans ?_ hprefix.isInfix)
    exact ⟨headerLines todo ++ t.bad, [], by simp⟩

/-- A line that has an end is not awaited for ever. -/
theorem Waiting.rest_eq_none {t : BadText} {h : Handler} {sofar : Bytes}
    {done todo : List (Bytes × Bytes)} (hwaiting : Waiting t h sofar [] done todo) : t.rest = none := by
  have hunread := hwaiting.unread
  rw [List.append_nil] at hunread
  unfold BadText.tail at hunread
  cases hrest : t.rest with
  | none => rfl
  | some rest =>
    rw [hrest] at hunread
    refine absurd ?_ hwaiting.no_line
    rw [hunread]
    exact ⟨headerLines todo ++ t.bad, rest, by simp⟩

/-- The refusal, and what `_readCGI` forwards behind it because it takes the head for accepted. -/
theorem refused_refuseCGIHeaders {t : BadText} (hterminated : t.rest ≠ none) (h : Handler) :
    Refused t h.refuseCGIHeaders.forwardCGI h.request.readBuffer := by
  have hread : h.refuseCGIHeaders.request.readBuffer = h.request.readBuffer := rfl
  have hout : h.refuseCGIHeaders.context.responseBuffer = errorHead := responseBuffer_renderError _
  unfold forwardCGI
  split_ifs with hforward
  · refine ⟨hterminated, rfl, ?_⟩
    show h.refuseCGIHeaders.context.responseBuffer ++ h.refuseCGIHeaders.request.readBuffer = _
    rw [hout, hread]
  · have hnil : h.request.readBuffer = [] := List.eq_nil_of_length_eq_zero (by
      by_contra hne
      exact hforward ⟨rfl, Nat.pos_of_ne_zero hne⟩)
    refine ⟨hterminated, rfl, ?_⟩
    rw [hout, hnil, List.append_nil]

/-- The parser stopped before the bad line, and so it waits for the rest of it.  The lines before are
gathered, and nothing of the output was rendered. -/
theorem waiting_withLines {t : BadText} {h : Handler} {sofar future unread : Bytes} {p : Packet}
    {done more rest : List (Bytes × Bytes)}
    (hwaiting : Waiting t h sofar (p.bytes ++ future) done (more ++ rest)) (headers : StringMap)
    (hunread : unread ++ future = headerLines rest ++ t.tail)
    (hfind : Search.findSub crlf unread = none) :
    Waiting t ((h.received p).withLines headers unread).forwardCGI (sofar ++ p.bytes) future (done ++ more)
      rest := by
  have hwait : ((h.received p).withLines headers unread).forwardCGI = (h.received p).withLines headers unread :=
    forwardCGI_of_waiting hwaiting.cgiHeaders
  have htaken : h.request.readBuffer ++ p.bytes = headerLines more ++ unread := by
    have heq := hwaiting.unread
    rw [headerLines_append, List.append_assoc (headerLines more), ← hunread, ← List.append_assoc,
      ← List.append_assoc] at heq
    exact List.append_cancel_right heq
  rw [hwait]
  refine ⟨?_, ?_, hunread, Search.findSub_eq_none_iff.mp hfind, hwaiting.cgiIn, hwaiting.cgiHeaders,
    hwaiting.out⟩
  · rw [hwaiting.fields, List.append_assoc]
  · show sofar ++ p.bytes = headerLines (done ++ more) ++ unread
    rw [hwaiting.arrived, List.append_assoc, htaken, headerLines_append, List.append_assoc]

/-- **One read.**  The bad line is still awaited, or it was read, with something behind it or nothing:
nothing exactly when the read ends where the line ends. -/
theorem waiting_readCGI {t : BadText} {h : Handler} {sofar future : Bytes}
    {done todo : List (Bytes × Bytes)} (sys : Sys) (p : Packet)
    (hwaiting : Waiting t h sofar (p.bytes ++ future) done todo) :
    (∃ done todo, Waiting t (readCGI { sys with recv := .data p } h).2 (sofar ++ p.bytes) future done todo) ∨
      ∃ extra, sofar ++ p.bytes = t.start ++ extra ∧
        Refused t (readCGI { sys with recv := .data p } h).2 extra := by
  have htodo : ∀ f ∈ todo, f ∈ t.fields := fun f hf => by
    rw [hwaiting.fields]
    exact List.mem_append_right done hf
  have hunread := hwaiting.unread
  rw [← List.append_assoc] at hunread
  rw [readCGI_data sys p hwaiting.cgiIn, if_neg (by rw [hwaiting.cgiHeaders]; exact Bool.false_ne_true)]
  rcases parseCGIHeadersLoop_lines (h.received p) (fun f hf => t.key f (htodo f hf))
      (fun f hf => t.line f (htodo f hf)) le_rfl hunread with
    ⟨more, rest, unread, rfl, -, hrest, hfind, hparse⟩ | ⟨m, unread, hm, hrest, hparse⟩
  · have heq : (h.received p).parseCGIHeaders = _ := hparse
    rw [heq]
    exact Or.inl ⟨_, _, waiting_withLines hwaiting _ hrest hfind⟩
  -- all header lines have arrived
  have hwaiting' : Waiting t h sofar (p.bytes ++ future) done (todo ++ []) := by
    rw [List.append_nil]
    exact hwaiting
  have hparsed : (h.received p).parseCGIHeaders = _ := hparse
  rw [hparsed]
  cases hend : t.rest with
  | none =>
    have hbad : unread ++ future = t.bad := by
      rw [hrest, BadText.tail, hend]
    have hfind : Search.findSub crlf unread = none := Search.findSub_eq_none_iff.mpr fun hinfix =>
      t.bad_line ( hinfix.trans ⟨[], future, by rw [List.nil_append, hbad]⟩)
    rw [parseCGIHeadersLoop_of_find_none hfind m]
    exact Or.inl ⟨_, _, waiting_withLines hwaiting' _ hrest hfind⟩
  | some rest =>
    have hbad : unread ++ future = t.bad ++ (crlf ++ rest) := by
      rw [hrest, BadText.tail, hend]
    rcases parseCGIHeadersLoop_next (h.received p) (h.context.response.headers.insertAll todo) t.bad_line hm
        hbad with ⟨-, hfind, hwait⟩ | ⟨_, q, hq, hnext⟩
    · have heq : parseCGIHeadersLoop m _ = _ := hwait
      rw [heq]
      exact Or.inl ⟨_, _, waiting_withLines hwaiting' _ hrest hfind⟩
    · rw [if_neg t.bad_ne_nil, Search.findSub_eq_none_iff.mpr t.bad_key] at hnext
      have heq : parseCGIHeadersLoop m _ = _ := hnext
      have hread : unread = t.bad ++ (crlf ++ q) := by
        rw [← hq, ← List.append_assoc, ← List.append_assoc] at hbad
        rw [List.append_cancel_right hbad, List.append_assoc]
      have htaken : h.request.readBuffer ++ p.bytes = headerLines todo ++ unread := by
        rw [← hrest, ← List.append_assoc] at hunread
        exact List.append_cancel_right hunread
      rw [heq]
      refine Or.inr ⟨q, ?_, refused_refuseCGIHeaders (by rw [hend]; exact Option.some_ne_none rest) _⟩
      rw [hwaiting.arrived, List.append_assoc, htaken, hread, BadText.start, hwaiting.fields,
        headerLines_append]
      simp only [List.append_assoc]

/-! ## The whole output -/

/-- A CGI that is not listened to any more is not read, so later packets add nothing. -/
theorem readCGI_of_cgiIn {h : Handler} (hin : h.context.requestState.cgiIn = true) (sys : Sys) :
    (readCGI sys h).2 = h := by
  unfold readCGI
  exact congrArg Prod.snd (if_pos hin)

theorem receive_of_cgiIn {h : Handler} (hin : h.context.requestState.cgiIn = true) :
    ∀ reads, receive reads h = h
  | [] => rfl
  | r :: reads => by
    show receive reads (readCGI _ h).2 = h
    rw [readCGI_of_cgiIn hin, receive_of_cgiIn hin]

/-- **All reads.**  The bad line is awaited to the end, or it ends in the last of some first reads. -/
theorem waiting_receive {t : BadText} : ∀ {reads : List (Sys × Packet)} {h : Handler} {sofar : Bytes}
    {done todo : List (Bytes × Bytes)}, Waiting t h sofar (bytesOf reads) done todo →
      (∃ sofar done todo, Waiting t (receive reads h) sofar [] done todo) ∨
        ∃ before extra, before <+: reads ∧ sofar ++ bytesOf before = t.start ++ extra ∧
          (∀ first, first <+: before → first ≠ before →
            (sofar ++ bytesOf first).length < t.start.length) ∧
          Refused t (receive reads h) extra
  | [], h, sofar, done, todo, hwaiting => Or.inl ⟨sofar, done, todo, hwaiting⟩
  | r :: reads, h, sofar, done, todo, hwaiting => by
    have hshort := hwaiting.length_lt
    rcases waiting_readCGI r.1 r.2 hwaiting with ⟨done', todo', hnext⟩ | ⟨extra, hextra, hrefused⟩
    · rcases waiting_receive hnext with hend | ⟨before, extra, hbefore, hextra, hfirst, hrefused⟩
      · exact Or.inl hend
      · refine Or.inr ⟨r :: before, extra, List.cons_prefix_cons.mpr ⟨rfl, hbefore⟩, ?_, ?_, hrefused⟩
        · rw [bytesOf_cons, ← List.append_assoc]
          exact hextra
        · intro first hprefix hne
          cases first with
          | nil => rwa [bytesOf_nil, List.append_nil]
          | cons r' first =>
            obtain ⟨rfl, hshorter⟩ := List.cons_prefix_cons.mp hprefix
            rw [bytesOf_cons, ← List.append_assoc]
            exact hfirst first hshorter fun heq => hne (by rw [heq])
    · refine Or.inr ⟨[r], extra, List.cons_prefix_cons.mpr ⟨rfl, List.nil_prefix⟩, ?_, ?_, ?_⟩
      · rw [bytesOf_cons, bytesOf_nil, List.append_nil]
        exact hextra
      · intro first hprefix hne
        cases first with
        | nil => rwa [bytesOf_nil, List.append_nil]
        | cons r' first =>
          obtain ⟨rfl, hnil⟩ := List.cons_prefix_cons.mp hprefix
          obtain rfl := List.prefix_nil.mp hnil
          exact absurd rfl hne
      · show Refused t (receive reads (readCGI _ h).2) extra
        rw [receive_of_cgiIn hrefused.cgiIn]
        exact hrefused

theorem AwaitsOutput.waiting {h : Handler} (hawaits : AwaitsOutput h) (t : BadText) :
    Waiting t h [] t.stream [] t.fields where
  fields := rfl
  arrived := by rw [hawaits.read]; rfl
  unread := by rw [hawaits.read]; rfl
  no_line := by rw [hawaits.read]; decide
  cgiIn := hawaits.cgiIn
  cgiHeaders := hawaits.cgiHeaders
  out := hawaits.out

/-- The end of the file where a line is still awaited. -/
theorem Waiting.closed {t : BadText} {h : Handler} {sofar : Bytes} {done todo : List (Bytes × Bytes)}
    (hwaiting : Waiting t h sofar [] done todo) (last : Sys) :
    (readCGI { last with recv := .closed } h).2.context.responseBuffer = errorHead := by
  have hopen : ¬ h.context.requestState.isCgiInComplete = true := by
    rw [RequestState.isCgiInComplete, hwaiting.cgiIn]
    exact Bool.false_ne_true
  have hhead : ¬ h.context.requestState.cgiHeaders = true := by
    rw [hwaiting.cgiHeaders]
    exact Bool.false_ne_true
  unfold readCGI
  rw [if_neg hopen]
  have hrender := responseBuffer_renderError
    ({ h with context := h.context.record (.recv h.context.cgiSocket) }.setState RequestState.setWorkComplete)
  exact (congrArg (fun h => Handler.context h |>.responseBuffer) (if_neg hhead)).trans hrender

/-- What the client gets of an output with a bad line. -/
theorem AwaitsOutput.exists_extra {h : Handler} (hawaits : AwaitsOutput h) (t : BadText)
    {reads : List (Sys × Packet)} (hreads : bytesOf reads = t.stream) (last : Sys) :
    ∃ extra, (receiveAll reads last h).context.responseBuffer = errorHead ++ extra ∧
      (extra = [] ↔ t.rest = none ∨ ∃ before, before <+: reads ∧ bytesOf before = t.start) := by
  have hstart := hawaits.waiting t
  rw [← hreads] at hstart
  rcases waiting_receive hstart with ⟨sofar, done, todo, hend⟩ |
    ⟨before, extra, hbefore, hextra, hfirst, hrefused⟩
  · refine ⟨[], ?_, iff_of_true rfl (Or.inl hend.rest_eq_none)⟩
    rw [List.append_nil]
    exact hend.closed last
  · refine ⟨extra, ?_, ?_, ?_⟩
    · rw [receiveAll, readCGI_of_cgiIn hrefused.cgiIn]
      exact hrefused.out
    · rintro rfl
      exact Or.inr ⟨before, hbefore, by rwa [List.append_nil] at hextra⟩
    · rintro (hnone | ⟨first, hprefix, hcut⟩)
      · exact absurd hnone hrefused.terminated
      · have hlength : (bytesOf before).length = t.start.length + extra.length := by
          rw [← List.length_append, ← hextra]
          rfl
        rcases List.prefix_or_prefix_of_prefix hprefix hbefore with hle | ⟨more, rfl⟩
        · by_cases heq : first = before
          · rw [← heq, hcut] at hlength
            exact List.eq_nil_of_length_eq_zero (by omega)
          · have hshort := hfirst first hle heq
            rw [List.nil_append, hcut] at hshort
            exact absurd hshort (Nat.lt_irrefl _)
        · have hmore : (bytesOf (before ++ more)).length = (bytesOf before).length + (bytesOf more).length := by
            rw [bytesOf, List.map_append, List.flatten_append, List.length_append]
            rfl
          rw [hcut] at hmore
          exact List.eq_nil_of_length_eq_zero (by omega)

/-- **Malformed heads.**  An output with a bad line has a first one, and however it is cut into reads the
client gets the 500 and nothing else, if and only if that line has no end, or a read ends where the line
ends. -/
theorem placesErrorHead_iff {out : Bytes} (hout : HasBadLine out) :
    (∃ t : BadText, t.stream = out) ∧ ∀ t : BadText, t.stream = out →
      ∀ (h : Handler) (reads : List (Sys × Packet)) (last : Sys), AwaitsOutput h → bytesOf reads = out →
        ((receiveAll reads last h).context.responseBuffer = errorHead ↔
          t.rest = none ∨ ∃ before, before <+: reads ∧ bytesOf before = t.start) := by
  refine ⟨hout.exists_badText, ?_⟩
  rintro t rfl h reads last hawaits hreads
  obtain ⟨extra, hbuffer, hextra⟩ := hawaits.exists_extra t hreads last
  rw [hbuffer, ← hextra]
  exact List.append_right_eq_self

/-- A header line, and then a line that is none. -/
def badOutput : BadText where
  fields := [(bytes "A", bytes "b")]
  bad := bytes "bad"
  rest := some (bytes "\r\nx")
  key := by decide
  line := by decide
  bad_ne_nil := by decide
  bad_line := by decide
  bad_key := by decide

theorem hasBadLine_badOutput : HasBadLine badOutput.stream :=
  ⟨[bytes "A: b"], bytes "bad", bytes "\r\n\r\nx", by decide, by decide, by decide, by decide, by decide,
    Or.inr (by decide)⟩

/-- A read ends where the bad line ends, so that nothing is left in the buffer to follow the error. -/
def luckyReads : List (Sys × Packet) :=
  [(.quiet 0, ⟨bytes "A: b\r\nbad\r\n", by decide, by decide⟩),
   (.quiet 1, ⟨bytes "\r\nx", by decide, by decide⟩)]

theorem placesErrorHead_iff_lucky :
    (receiveAll luckyReads (.quiet 2) cgiHandler).context.responseBuffer = errorHead ↔
      badOutput.rest = none ∨ ∃ before, before <+: luckyReads ∧ bytesOf before = badOutput.start :=
  (placesErrorHead_iff hasBadLine_badOutput).2 badOutput rfl cgiHandler luckyReads (.quiet 2)
    awaitsOutput_cgiHandler (by decide)

set_option maxRecDepth 10000 in
/-- All of it in one read: what follows the bad line goes out behind the 500. -/
theorem not_placesErrorHead :
    HasBadLine (bytes "bad\r\n\r\nsecret") ∧ AwaitsOutput cgiHandler ∧
      bytesOf [(Sys.quiet 0, ⟨bytes "bad\r\n\r\nsecret", by decide, by decide⟩)] =
        bytes "bad\r\n\r\nsecret" ∧
      (receiveAll [(Sys.quiet 0, ⟨bytes "bad\r\n\r\nsecret", by decide, by decide⟩)] (.quiet 1)
        cgiHandler).context.responseBuffer = errorHead ++ bytes "\r\nsecret" ∧
      (receiveAll [(Sys.quiet 0, ⟨bytes "bad\r\n\r\nsecret", by decide, by decide⟩)] (.quiet 1)
        cgiHandler).context.responseBuffer ≠ errorHead :=
  ⟨⟨[], bytes "bad", bytes "\r\n\r\nsecret", by decide, by decide, by decide, by decide, by decide,
    Or.inr (by decide)⟩, awaitsOutput_cgiHandler, by decide, by decide +kernel, by decide +kernel⟩

end Handler
end Webserv
