import Mathlib.Data.List.Nodup
import Webserv.Effects.Output

/-!
# The response of a CGI

What a CGI writes is a head and a body.  The lines of the head are gathered in the response over any number
of reads; at the empty line the head is rendered, with the status line that `Status` gives, and what follows
it goes to the client as it is.

## How far an output has come

A read may end anywhere: within a line, between the two bytes of its end, behind the empty line or within the
body.  The parser takes the complete lines out of the read buffer and leaves the rest, so the state between
two reads is one of two.  Before the empty line some of the fields are in the response, the buffer holds the
start of what is still to come, and nothing has been sent.  Behind it the head and a part of the body are in
the response buffer, and the read buffer is empty.  `Receiving` says this with the bytes that are still to be
read as a parameter; one read takes its bytes off them (`receiving_readCGI`), and an output that is read to
its end leaves none (`Receiving.closed`).

## The status line

The code of `Status` is made into a number and printed again.  Nothing checks that the number is a status
code, and a number has no leading zeros: what is printed is the three digits of the CGI exactly when the
first of them is no 0 (`decimal_digitsValue_iff`).  The other parts of the output are relayed for every
code.

## Main results

* `CgiText`: header lines and a body; `CgiOutput`: a well-formed output.
* `parseCGIHeadersLoop_lines`: what the parser does with the lines that have arrived.
* `AwaitsOutput.relays`: the response to any text, however it is cut.
* `relaysOutput_iff`: when the client gets what the CGI says.
-/

namespace Webserv

/-- A header line without its end. -/
def headerLine (f : Bytes × Bytes) : Bytes := f.1 ++ bytes ": " ++ f.2

/-- Header lines. -/
def headerLines (fields : List (Bytes × Bytes)) : Bytes :=
  fields.flatMap fun f => headerLine f ++ crlf

theorem headerLines_cons (f : Bytes × Bytes) (fields : List (Bytes × Bytes)) :
    headerLines (f :: fields) = headerLine f ++ (crlf ++ headerLines fields) := by
  rw [headerLines, List.flatMap_cons, List.append_assoc]
  rfl

theorem headerLines_append (fields fields' : List (Bytes × Bytes)) :
    headerLines (fields ++ fields') = headerLines fields ++ headerLines fields' :=
  List.flatMap_append

/-- Header lines and a body, in parts: the outputs of a CGI in which no name holds the separator and no line
a line end. -/
structure CgiText where
  fields : List (Bytes × Bytes)
  body : Bytes
  key : ∀ f ∈ fields, ¬ bytes ": " <:+: f.1
  line : ∀ f ∈ fields, ¬ crlf <:+: headerLine f

/-- The bytes of a text: the lines, the empty line, the body. -/
def CgiText.stream (t : CgiText) : Bytes := headerLines t.fields ++ crlf ++ t.body

/-- A well-formed output of a CGI.  `Status` may be one of the fields. -/
structure CgiOutput where
  fields : List (Bytes × Bytes)
  body : Bytes
  nodup : (fields.map Prod.fst).Nodup
  key : ∀ f ∈ fields, ¬ bytes ": " <:+: f.1
  line : ∀ f ∈ fields, ¬ crlf <:+: headerLine f
  status : ∀ value, (headerStatus, value) ∈ fields → ∃ a b c first phrase,
    value = a :: b :: c :: space :: first :: phrase ∧ isdigit a = true ∧ isdigit b = true ∧
      isdigit c = true ∧ isalpha first = true

namespace CgiOutput

variable (o : CgiOutput)

def text : CgiText := ⟨o.fields, o.body, o.key, o.line⟩

/-- The bytes that the CGI writes. -/
def stream : Bytes := headerLines o.fields ++ crlf ++ o.body

/-- The value of `Status`. -/
def status? : Option Bytes := (o.fields.find? fun f => f.1 = headerStatus).map Prod.snd

/-- The status line that the client should get: the three digits and the phrase of `Status` as they are written
there, or 200. -/
def statusLine : Bytes :=
  match o.status? with
  | none => bytes "HTTP/1.1 200 OK\r\n"
  | some value => bytes "HTTP/1.1 " ++ value ++ crlf

/-- The code of `Status`, if there is one, does not begin with a 0. -/
def PlainCode : Prop := ∀ value, o.status? = some value → value.head? ≠ some 48

/-- The headers for the client: without `Status`, and with the default `Server`. -/
def headers : List (Bytes × Bytes) :=
  o.fields.filter (fun f => f.1 ≠ headerStatus) ++
    if headerServer ∈ o.fields.map Prod.fst then [] else [(headerServer, bytes "webserv/0.5")]

end CgiOutput

/-! ## The rendered head -/

/-- The response that `_parseCGIHeaders` renders at the empty line. -/
def cgiResponse (headers : StringMap) : Response :=
  let response := { Response.init with headers := headers }
  match headers.find? headerStatus with
  | none => response.setStatusCode statusOk
  | some value =>
    let r := Handler.cgiStatusToStatus value
    ((response.setStatusCode r.1).setReasonPhrase r.2).deleteHeader headerStatus

/-- It has no body. -/
theorem clearBody_cgiResponse (headers : StringMap) :
    (cgiResponse headers).clearBody = cgiResponse headers := by
  unfold cgiResponse
  dsimp only
  cases headers.find? headerStatus <;> rfl

/-- `Status` is taken for what it is. -/
theorem cgiStatusToStatus_of_status {a b c first : Byte} {phrase : Bytes} (ha : isdigit a = true)
    (hb : isdigit b = true) (hc : isdigit c = true) :
    Handler.cgiStatusToStatus (a :: b :: c :: space :: first :: phrase) =
      (digitsValue 10 [a, b, c], first :: phrase) := by
  have hvalue : ∀ d : Byte, isdigit d = true → (digitValue d).getD 0 = d.toNat - 48 := by
    intro d hd
    rw [digitValue, if_pos hd]
    rfl
  generalize hs : a :: b :: c :: space :: first :: phrase = value
  have h₀ : value.getD 0 0 = a := by rw [← hs]; rfl
  have h₁ : value.getD 1 0 = b := by rw [← hs]; rfl
  have h₂ : value.getD 2 0 = c := by rw [← hs]; rfl
  have hdigits : ¬ (¬ isdigit (value.getD 0 0) = true ∨ ¬ isdigit (value.getD 1 0) = true ∨
      ¬ isdigit (value.getD 2 0) = true) := by
    rw [h₀, h₁, h₂]
    simp [ha, hb, hc]
  have hlength : ¬ value.length < 5 := by rw [← hs]; simp
  have hdrop : value.drop 4 = first :: phrase := by rw [← hs]; rfl
  unfold Handler.cgiStatusToStatus
  dsimp only
  rw [if_neg fun hshort => hlength hshort.1, if_neg hdigits, h₀, h₁, h₂, hdrop]
  simp only [digitsValue, List.foldl_cons, List.foldl_nil, hvalue a ha, hvalue b hb, hvalue c hc,
    Prod.mk.injEq, and_true]
  omega

/-- All fields are in the map, and the default `Server` is when there is no other. -/
theorem find?_insertAll_fields (o : CgiOutput) (k v : Bytes) :
    (Response.init.headers.insertAll o.fields).find? k = some v ↔
      (k, v) ∈ o.fields ∨ k ∉ o.fields.map Prod.fst ∧ k = headerServer ∧ v = bytes "webserv/0.5" := by
  by_cases hk : k ∈ o.fields.map Prod.fst
  · obtain ⟨e, he, rfl⟩ := List.mem_map.mp hk
    rw [OrderedMap.find?_insertAll_of_mem o.nodup he]
    constructor
    · intro hv
      rw [← Option.some.inj hv]
      exact Or.inl he
    · rintro (hmem | ⟨hnot, -⟩)
      · rw [← OrderedMap.find?_insertAll_of_mem o.nodup he Response.init.headers,
          OrderedMap.find?_insertAll_of_mem o.nodup hmem]
      · exact absurd hk hnot
  · rw [OrderedMap.find?_insertAll_of_notMem hk]
    constructor
    · intro hfind
      have hserver : k = headerServer := by
        by_contra hne
        rw [Response.init, OrderedMap.find?_insert_of_ne _ hne] at hfind
        cases hfind
      subst hserver
      rw [Response.init, OrderedMap.find?_insert_self] at hfind
      exact Or.inr ⟨hk, rfl, (Option.some.inj hfind).symm⟩
    · rintro (hmem | ⟨-, rfl, rfl⟩)
      · exact absurd (List.mem_map.mpr ⟨_, hmem, rfl⟩) hk
      · exact OrderedMap.find?_insert_self _ _ _

namespace CgiOutput

variable (o : CgiOutput)

theorem status?_eq_some_iff {value : Bytes} :
    o.status? = some value ↔ (headerStatus, value) ∈ o.fields := by
  unfold status?
  rw [Option.map_eq_some_iff]
  constructor
  · rintro ⟨f, hfind, rfl⟩
    have hkey : f.1 = headerStatus := by simpa using List.find?_some hfind
    rw [← hkey]
    exact List.mem_of_find?_eq_some hfind
  · intro hmem
    cases hfind : o.fields.find? fun f => f.1 = headerStatus with
    | none => exact absurd (decide_eq_true rfl) (List.find?_eq_none.mp hfind _ hmem)
    | some f =>
      have hkey : f.1 = headerStatus := by simpa using List.find?_some hfind
      have heq := List.inj_on_of_nodup_map o.nodup (List.mem_of_find?_eq_some hfind) hmem hkey
      exact ⟨f, rfl, by rw [heq]⟩

/-- The look-up of `Status` in the map that the fields are gathered in. -/
theorem find?_status : (Response.init.headers.insertAll o.fields).find? headerStatus = o.status? := by
  refine Option.ext fun value => ?_
  rw [find?_insertAll_fields, status?_eq_some_iff]
  exact or_iff_left fun hserver => absurd hserver.2.1 (by decide)

theorem mem_headers {k v : Bytes} : (k, v) ∈ o.headers ↔ k ≠ headerStatus ∧
    (Response.init.headers.insertAll o.fields).find? k = some v := by
  rw [find?_insertAll_fields, headers, List.mem_append, List.mem_filter, decide_eq_true_eq]
  constructor
  · rintro (⟨hmem, hne⟩ | hmem)
    · exact ⟨hne, Or.inl hmem⟩
    · split_ifs at hmem with hserver
      · cases hmem
      · cases List.mem_singleton.mp hmem
        exact ⟨by decide, Or.inr ⟨hserver, rfl, rfl⟩⟩
  · rintro ⟨hne, hmem | ⟨hnot, rfl, rfl⟩⟩
    · exact Or.inl ⟨hmem, hne⟩
    · rw [if_neg hnot]
      exact Or.inr (List.mem_singleton.mpr rfl)

theorem nodup_headers : o.headers.Nodup := by
  have hfields : o.fields.Nodup := List.Nodup.of_map _ o.nodup
  unfold headers
  split_ifs with hserver
  · rw [List.append_nil]
    exact hfields.filter _
  · refine List.nodup_append.mpr ⟨hfields.filter _, List.nodup_singleton _, ?_⟩
    rintro f hf g hg rfl
    rw [List.mem_singleton.mp hg] at hf
    exact hserver (List.mem_map.mpr ⟨_, (List.mem_filter.mp hf).1, rfl⟩)

/-- The three digits of `Status`, and what follows them. -/
theorem exists_digits {value : Bytes} (h : o.status? = some value) : ∃ digits phrase,
    value = digits ++ space :: phrase ∧ digits.length = 3 ∧ (∀ c ∈ digits, isdigit c = true) ∧
      Handler.cgiStatusToStatus value = (digitsValue 10 digits, phrase) := by
  obtain ⟨a, b, c, first, phrase, rfl, ha, hb, hc, -⟩ := o.status value (o.status?_eq_some_iff.mp h)
  refine ⟨[a, b, c], first :: phrase, rfl, rfl, ?_, cgiStatusToStatus_of_status ha hb hc⟩
  simp [ha, hb, hc]

/-- The status line is printed from the number that the digits stand for. -/
theorem statusLine_cgiResponse {headers : StringMap} (hfind : headers.find? headerStatus = o.status?)
    {value : Bytes} (h : o.status? = some value) {digits phrase : Bytes}
    (hstatus : Handler.cgiStatusToStatus value = (digitsValue 10 digits, phrase)) :
    (cgiResponse headers).statusLine =
      bytes "HTTP/1.1 " ++ (decimal (digitsValue 10 digits) ++ space :: (phrase ++ crlf)) := by
  have hline : (cgiResponse headers).statusLine =
      bytes "HTTP/1.1 " ++ decimal (digitsValue 10 digits) ++ [space] ++ phrase ++ crlf := by
    unfold cgiResponse
    rw [hfind, h]
    dsimp only
    rw [hstatus]
    rfl
  rw [hline]
  simp only [List.append_assoc, List.cons_append, List.nil_append]

/-- A code that does not begin with a 0 is printed as it was written. -/
theorem statusLine_of_plainCode (hplain : o.PlainCode) {headers : StringMap}
    (hfind : headers.find? headerStatus = o.status?) :
    (cgiResponse headers).statusLine = o.statusLine := by
  cases hstatus : o.status? with
  | none =>
    have hok : (cgiResponse headers).statusLine = bytes "HTTP/1.1 " ++ numToStr statusOk ++ [space] ++
        statusCodeToReason statusOk ++ crlf := by
      unfold cgiResponse
      rw [hfind, hstatus]
      rfl
    rw [hok, statusLine, hstatus]
    decide
  | some value =>
    obtain ⟨digits, phrase, rfl, hlength, hdigits, hcode⟩ := o.exists_digits hstatus
    have hne : digits ≠ [] := List.ne_nil_of_length_eq_add_one hlength
    have hself : decimal (digitsValue 10 digits) = digits := by
      refine (decimal_digitsValue_iff hne hdigits).mpr fun _ => ?_
      simpa [List.head?_append_of_ne_nil _ hne] using hplain _ hstatus
    rw [o.statusLine_cgiResponse hfind hstatus hcode, hself, statusLine, hstatus]
    simp only [List.append_assoc, List.cons_append]

/-- Digits end at the first blank, so that the scan of the code stops where the three digits do. -/
theorem takeWhile_digits {digits : Bytes} (h : ∀ c ∈ digits, isdigit c = true) (tail : Bytes) :
    (digits ++ space :: tail).takeWhile (· ≠ space) = digits := by
  rw [List.takeWhile_append_of_pos fun c hc => ?_, List.takeWhile_cons_of_neg (by simp), List.append_nil]
  refine decide_eq_true fun heq => ?_
  have hblank := h c hc
  rw [heq] at hblank
  cases hblank

/-- A client that gets the right status line gets a code that does not begin with a 0: a number is printed
without leading zeros. -/
theorem plainCode_of_statusLine {headers : StringMap} (hfind : headers.find? headerStatus = o.status?)
    {tail tail' : Bytes} (heq : (cgiResponse headers).statusLine ++ tail = o.statusLine ++ tail') :
    o.PlainCode := by
  intro value hstatus
  obtain ⟨digits, phrase, rfl, hlength, hdigits, hcode⟩ := o.exists_digits hstatus
  have hne : digits ≠ [] := List.ne_nil_of_length_eq_add_one hlength
  have hline : o.statusLine = bytes "HTTP/1.1 " ++ (digits ++ space :: (phrase ++ crlf)) := by
    rw [statusLine, hstatus]
    simp only [List.append_assoc, List.cons_append]
  rw [o.statusLine_cgiResponse hfind hstatus hcode, hline, List.append_assoc, List.append_assoc,
    List.append_assoc, List.append_assoc, List.cons_append, List.cons_append] at heq
  have hprinted := congrArg (List.takeWhile (· ≠ space)) (List.append_cancel_left heq)
  rw [takeWhile_digits (fun c hc => isdigit_of_mem_decimal hc), takeWhile_digits hdigits] at hprinted
  have hlong : 1 < digits.length := by omega
  rw [List.head?_append_of_ne_nil _ hne]
  exact (decimal_digitsValue_iff hne hdigits).mp hprinted hlong

/-- The head that is rendered: its status line, each header once, and the empty line. -/
theorem exists_headers : ∃ headers : List (Bytes × Bytes), headers.Perm o.headers ∧
    (cgiResponse (Response.init.headers.insertAll o.fields)).head =
      (cgiResponse (Response.init.headers.insertAll o.fields)).statusLine ++ headerLines headers ++
        crlf := by
  have hheaders : ∀ headers : StringMap, headers.find? headerStatus = o.status? →
      (cgiResponse headers).headers =
        if o.status?.isSome then headers.erase headerStatus else headers := by
    intro headers hfind
    unfold cgiResponse
    rw [hfind]
    cases o.status? <;> rfl
  have hmem := @mem_headers o
  refine ⟨(cgiResponse (Response.init.headers.insertAll o.fields)).headers.entries, ?_, rfl⟩
  refine OrderedMap.perm_entries o.nodup_headers fun k v => ?_
  rw [hheaders _ o.find?_status, hmem]
  by_cases hsome : o.status?.isSome
  · rw [if_pos hsome]
    constructor
    · exact OrderedMap.find?_erase_eq_some
    · rintro ⟨hne, hfind⟩
      rwa [OrderedMap.find?_erase_of_ne _ hne]
  · rw [if_neg hsome]
    refine ⟨fun hfind => ⟨?_, hfind⟩, fun h => h.2⟩
    rintro rfl
    rw [o.find?_status] at hfind
    exact hsome (by rw [hfind]; rfl)

end CgiOutput

/-! ## The lines of the head -/

namespace Handler

theorem parseCGIHeadersLoop_of_find_none {h : Handler}
    (hfind : Search.findSub crlf h.request.readBuffer = none) :
    ∀ n, parseCGIHeadersLoop n h = h
  | 0 => rfl
  | n + 1 => by
    rw [← BinaryBuffer.find_eq_findSub (List.cons_ne_nil _ _)] at hfind
    unfold parseCGIHeadersLoop
    rw [hfind]

/-- A complete line is taken from the buffer.  The empty one ends the head, and any other becomes a header
or refuses the output. -/
theorem parseCGIHeadersLoop_line (h : Handler) (headers : StringMap) {line rest : Bytes} {n : Nat}
    (hfind : Search.findSub crlf (line ++ (crlf ++ rest)) = some line.length) :
    parseCGIHeadersLoop (n + 1) (h.withLines headers (line ++ (crlf ++ rest))) =
      if line = [] then (h.withLines headers rest).endCGIHeaders
      else
        match Search.findSub (bytes ": ") line with
        | none => (h.withLines headers rest).refuseCGIHeaders
        | some pos =>
          parseCGIHeadersLoop n
            (h.withLines (headers.insert (line.take pos) (line.drop (pos + 2))) rest) := by
  have hline : BinaryBuffer.substr (line ++ (crlf ++ rest)) 0 line.length = line := by
    rw [BinaryBuffer.substr_zero, List.take_left]
  have hrest : BinaryBuffer.erase (line ++ (crlf ++ rest)) 0 (line.length + 2) = rest := by
    rw [BinaryBuffer.erase_zero, ← List.drop_drop, List.drop_left]
    rfl
  rw [← BinaryBuffer.find_eq_findSub (List.cons_ne_nil _ _)] at hfind
  have hread : (h.withLines headers (line ++ (crlf ++ rest))).request.readBuffer =
    line ++ (crlf ++ rest) := rfl
  rw [parseCGIHeadersLoop, hread, hfind]
  dsimp only
  rw [hline, hrest]
  split_ifs
  · rfl
  · cases Search.findSub (bytes ": ") line with
    | none => rfl
    | some pos => rfl

/-- The lines that have arrived are gathered; what follows them is left to the parser. -/
theorem parseCGIHeadersLoop_lines (h : Handler) {tail future : Bytes} {todo : List (Bytes × Bytes)}
    (hkey : ∀ f ∈ todo, ¬ bytes ": " <:+: f.1) (hline : ∀ f ∈ todo, ¬ crlf <:+: headerLine f) {n : Nat}
    {headers : StringMap} {readBuffer : Bytes} (hn : readBuffer.length ≤ n)
    (hunread : readBuffer ++ future = headerLines todo ++ tail) :
    (∃ done rest unread, todo = done ++ rest ∧ future ≠ [] ∧
        unread ++ future = headerLines rest ++ tail ∧ Search.findSub crlf unread = none ∧
        parseCGIHeadersLoop n (h.withLines headers readBuffer) =
          h.withLines (headers.insertAll done) unread) ∨
      ∃ m unread, unread.length ≤ m ∧ unread ++ future = tail ∧
        parseCGIHeadersLoop n (h.withLines headers readBuffer) =
          parseCGIHeadersLoop m (h.withLines (headers.insertAll todo) unread) := by
  have hcrlf : cr ≠ lf := by decide
  induction todo generalizing n headers readBuffer with
  | nil => exact Or.inr ⟨n, readBuffer, hn, hunread, rfl⟩
  | cons f todo ih =>
    have hsplit : readBuffer ++ future = headerLine f ++ (crlf ++ (headerLines todo ++ tail)) := by
      rw [hunread, headerLines_cons, List.append_assoc, List.append_assoc]
    rcases Search.findSub_pair_of_append hcrlf (hline f List.mem_cons_self) hsplit with
      ⟨hfind, hmore⟩ | ⟨q, rfl, hq, hfind⟩
    · exact Or.inl ⟨[], f :: todo, readBuffer, rfl, hmore, hunread, hfind,
        parseCGIHeadersLoop_of_find_none hfind n⟩
    · obtain ⟨n, rfl⟩ : ∃ m, n = m + 1 := Nat.exists_eq_succ_of_ne_zero fun h0 => by
        rw [h0] at hn
        simp at hn
      have hkeyEnd : Search.findSub (bytes ": ") (headerLine f) = some f.1.length := by
        have hcolon : (58 : Byte) ≠ space := by decide
        rw [headerLine, List.append_assoc]
        exact Search.findSub_append_pair hcolon (hkey f List.mem_cons_self) f.2
      have hne : headerLine f ≠ [] := fun hnil => by
        have hlength := congrArg List.length hnil
        rw [headerLine, List.length_append, List.length_append] at hlength
        have hcolon : (bytes ": ").length = 2 := by decide
        rw [hcolon, List.length_nil] at hlength
        omega
      have hfirst : (headerLine f).take f.1.length = f.1 := by
        rw [headerLine, List.append_assoc, List.take_left]
      have hsecond : (headerLine f).drop (f.1.length + 2) = f.2 := by
        rw [headerLine, List.append_assoc, ← List.drop_drop, List.drop_left]
        rfl
      have hlength : q.length ≤ n := by
        simp only [List.length_append, List.length_cons] at hn
        omega
      have hstep := parseCGIHeadersLoop_line (n := n) h headers hfind
      rw [if_neg hne, hkeyEnd] at hstep
      dsimp only at hstep
      rw [hfirst, hsecond] at hstep
      rw [hstep]
      rcases ih (fun g hg => hkey g (List.mem_cons_of_mem _ hg))
          (fun g hg => hline g (List.mem_cons_of_mem _ hg)) hlength hq with
        ⟨done, rest, unread, rfl, hmore, hrest, hfind, heq⟩ | hend
      · exact Or.inl ⟨f :: done, rest, unread, rfl, hmore, hrest, hfind, heq⟩
      · exact Or.inr hend

/-- The line after the gathered ones: it is still coming, or it is taken from the buffer. -/
theorem parseCGIHeadersLoop_next (h : Handler) (headers : StringMap) {line rest unread future : Bytes}
    {n : Nat} (hline : ¬ crlf <:+: line) (hn : unread.length ≤ n)
    (hunread : unread ++ future = line ++ (crlf ++ rest)) :
    future ≠ [] ∧ Search.findSub crlf unread = none ∧
        parseCGIHeadersLoop n (h.withLines headers unread) = h.withLines headers unread ∨
      ∃ m q, q ++ future = rest ∧ parseCGIHeadersLoop n (h.withLines headers unread) =
        if line = [] then (h.withLines headers q).endCGIHeaders
        else
          match Search.findSub (bytes ": ") line with
          | none => (h.withLines headers q).refuseCGIHeaders
          | some pos =>
            parseCGIHeadersLoop m (h.withLines (headers.insert (line.take pos) (line.drop (pos + 2))) q) := by
  have hcrlf : cr ≠ lf := by decide
  rcases Search.findSub_pair_of_append hcrlf hline hunread with ⟨hfind, hmore⟩ | ⟨q, rfl, hq, hfind⟩
  · exact Or.inl ⟨hmore, hfind, parseCGIHeadersLoop_of_find_none hfind n⟩
  · obtain ⟨n, rfl⟩ : ∃ m, n = m + 1 := Nat.exists_eq_succ_of_ne_zero fun h0 => by
      rw [h0] at hn
      simp at hn
    exact Or.inr ⟨n, q, hq, parseCGIHeadersLoop_line h headers hfind⟩

/-- The lines that have arrived are gathered, and the empty line ends the head. -/
theorem parseCGIHeadersLoop_fields (h : Handler) {body future : Bytes}
    {todo : List (Bytes × Bytes)} (hkey : ∀ f ∈ todo, ¬ bytes ": " <:+: f.1)
    (hline : ∀ f ∈ todo, ¬ crlf <:+: headerLine f) {n : Nat} {headers : StringMap}
    {readBuffer : Bytes} (hn : readBuffer.length ≤ n)
    (hunread : readBuffer ++ future = headerLines todo ++ crlf ++ body) :
    (∃ done rest unread, todo = done ++ rest ∧ future ≠ [] ∧
        unread ++ future = headerLines rest ++ crlf ++ body ∧
        parseCGIHeadersLoop n (h.withLines headers readBuffer) =
          h.withLines (headers.insertAll done) unread) ∨
      ∃ unread, unread ++ future = body ∧
        parseCGIHeadersLoop n (h.withLines headers readBuffer) =
          (h.withLines (headers.insertAll todo) unread).endCGIHeaders := by
  have hnone : ¬ crlf <:+: ([] : Bytes) := by decide
  rw [List.append_assoc] at hunread
  rcases parseCGIHeadersLoop_lines h hkey hline hn hunread with
    ⟨done, rest, unread, htodo, hmore, hrest, -, heq⟩ | ⟨m, unread, hm, hrest, heq⟩
  · exact Or.inl ⟨done, rest, unread, htodo, hmore, by rw [hrest, List.append_assoc], heq⟩
  · rcases parseCGIHeadersLoop_next h (headers.insertAll todo) hnone hm hrest with
      ⟨hmore, -, hwait⟩ | ⟨_, q, hq, hend⟩
    · refine Or.inl ⟨todo, [], unread, (List.append_nil todo).symm, hmore, ?_, heq.trans hwait⟩
      rw [hrest]
      rfl
    · exact Or.inr ⟨q, hq, heq.trans (hend.trans (if_pos rfl))⟩

/-! ## Reading -/

/-- The bytes of some reads, with nothing left of where they were cut. -/
def bytesOf (reads : List (Sys × Packet)) : Bytes := (reads.map fun r => r.2.bytes).flatten

@[simp] theorem bytesOf_nil : bytesOf [] = [] := rfl

@[simp] theorem bytesOf_cons (r : Sys × Packet) (reads : List (Sys × Packet)) :
    bytesOf (r :: reads) = r.2.bytes ++ bytesOf reads := rfl

/-- The reads of an output, one for each part, and each with its own answers of the kernel. -/
def receive (reads : List (Sys × Packet)) (h : Handler) : Handler :=
  reads.foldl (fun h r => (readCGI { r.1 with recv := .data r.2 } h).2) h

/-- How far an output has come, when `future` is still to be read. -/
inductive Receiving (t : CgiText) (h : Handler) (future : Bytes) : Prop where
  | head (done todo : List (Bytes × Bytes)) (hfields : t.fields = done ++ todo)
      (hin : h.context.requestState.cgiIn = false)
      (hheaders : h.context.requestState.cgiHeaders = false)
      (hresponse : h.context.response =
        { Response.init with headers := Response.init.headers.insertAll done })
      (hout : h.context.responseBuffer = [])
      (hunread : h.request.readBuffer ++ future = headerLines todo ++ crlf ++ t.body)
      (hmore : future ≠ [])
  | body (sofar : Bytes) (hin : h.context.requestState.cgiIn = false)
      (hheaders : h.context.requestState.cgiHeaders = true)
      (hresponse : h.context.response = cgiResponse (Response.init.headers.insertAll t.fields))
      (hout : h.context.responseBuffer =
        (cgiResponse (Response.init.headers.insertAll t.fields)).head ++ sofar)
      (hunread : sofar ++ future = t.body) (hread : h.request.readBuffer = [])

/-- The status line that ends the head. -/
theorem setCGIStatus_withLines {h : Handler} {gathered headers : StringMap} {unread : Bytes}
    (hresponse : h.context.response = { Response.init with headers := gathered }) :
    (h.withLines headers unread).setCGIStatus =
      { context := { h.context with response := cgiResponse headers }
        request := { h.request with readBuffer := unread } } := by
  have hwith : (h.withLines headers unread).context.response =
      { Response.init with headers := headers } := by
    unfold withLines
    rw [hresponse]
  unfold setCGIStatus cgiResponse
  rw [hwith]
  dsimp only
  cases headers.find? headerStatus with
  | none =>
    unfold setStatusCode RequestContext.setStatusCode
    rw [hwith]
    rfl
  | some value =>
    dsimp only
    unfold setStatusCode RequestContext.setStatusCode
    rw [hwith]
    rfl

/-- The head is rendered, and what follows it is not lost. -/
theorem receiving_endCGIHeaders {t : CgiText} {h : Handler} {gathered : StringMap}
    {unread future : Bytes} (hin : h.context.requestState.cgiIn = false)
    (hresponse : h.context.response = { Response.init with headers := gathered })
    (hunread : unread ++ future = t.body) :
    Receiving t
      (h.withLines (Response.init.headers.insertAll t.fields) unread).endCGIHeaders.forwardCGI
      future := by
  unfold endCGIHeaders
  rw [setCGIStatus_withLines hresponse]
  have hclear := clearBody_cgiResponse (Response.init.headers.insertAll t.fields)
  generalize hhead : cgiResponse (Response.init.headers.insertAll t.fields) = response at hclear
  unfold forwardCGI
  split_ifs with hcomplete
  · refine .body unread hin rfl (hclear.trans hhead.symm) ?_ hunread rfl
    rw [hhead]
    exact congrArg (· ++ unread) (List.append_nil response.head)
  · have hnil : unread = [] := List.eq_nil_of_length_eq_zero (by
      by_contra hne
      exact hcomplete ⟨rfl, Nat.pos_of_ne_zero hne⟩)
    subst hnil
    refine .body [] hin rfl (hclear.trans hhead.symm) ?_ hunread rfl
    rw [hhead]
    rfl

/-- The handler with one more packet in its buffer. -/
def received (h : Handler) (p : Packet) : Handler where
  context := h.context.record (.recv h.context.cgiSocket)
  request := { h.request with readBuffer := h.request.readBuffer ++ p.bytes }

/-- Nothing is forwarded before the end of the head, because the response could still become an error. -/
theorem forwardCGI_of_waiting {h : Handler} (hheaders : h.context.requestState.cgiHeaders = false) :
    h.forwardCGI = h := by
  refine if_neg fun hforward => ?_
  have hset : h.context.requestState.cgiHeaders = true := hforward.1
  rw [hheaders] at hset
  exact Bool.false_ne_true hset

/-- A read without an error, while the CGI is listened to. -/
theorem readCGI_data {h : Handler} (sys : Sys) (p : Packet)
    (hin : h.context.requestState.cgiIn = false) :
    (readCGI { sys with recv := .data p } h).2 =
      if h.context.requestState.cgiHeaders then (h.received p).forwardCGI
      else (h.received p).parseCGIHeaders.forwardCGI := by
  have hopen : ¬ h.context.requestState.isCgiInComplete = true := by
    rw [RequestState.isCgiInComplete, hin]
    exact Bool.false_ne_true
  unfold readCGI
  rw [if_neg hopen]
  exact apply_ite forwardCGI _ _ _

/-- The end of the file, behind a head: the work on the CGI is complete, and nothing else changes. -/
theorem readCGI_closed {h : Handler} (sys : Sys) (hin : h.context.requestState.cgiIn = false)
    (hheaders : h.context.requestState.cgiHeaders = true) :
    (readCGI { sys with recv := .closed } h).2 =
      { h with
        context := (h.context.record (.recv h.context.cgiSocket)).setState
          RequestState.setWorkComplete } := by
  have hopen : ¬ h.context.requestState.isCgiInComplete = true := by
    rw [RequestState.isCgiInComplete, hin]
    exact Bool.false_ne_true
  unfold readCGI
  rw [if_neg hopen]
  exact if_pos hheaders

/-- One read: of a part of the head, of its end, or of the body behind it. -/
theorem receiving_readCGI {t : CgiText} {h : Handler} {future : Bytes} (sys : Sys) (p : Packet)
    (hreceiving : Receiving t h (p.bytes ++ future)) :
    Receiving t (readCGI { sys with recv := .data p } h).2 future := by
  cases hreceiving with
  | head done todo hfields hin hheaders hresponse hout hunread hmore =>
    rw [readCGI_data sys p hin, if_neg (by rw [hheaders]; exact Bool.false_ne_true)]
    have hwith : h.received p = (h.received p).withLines
        (Response.init.headers.insertAll done) (h.request.readBuffer ++ p.bytes) := by
      unfold received withLines RequestContext.record
      dsimp only
      rw [hresponse]
    have htodo : ∀ f ∈ todo, f ∈ t.fields := fun f hf => by
      rw [hfields]
      exact List.mem_append_right done hf
    rw [← List.append_assoc] at hunread
    rcases parseCGIHeadersLoop_fields (h.received p) (fun f hf => t.key f (htodo f hf))
        (fun f hf => t.line f (htodo f hf)) le_rfl hunread with
      ⟨more, rest, unread, rfl, hmore, hrest, hparse⟩ | ⟨unread, hrest, hparse⟩
    · -- the head goes on in the next packet, and nothing is forwarded
      rw [← hwith, ← OrderedMap.insertAll_append] at hparse
      have heq : (h.received p).parseCGIHeaders = _ := hparse
      have hwait := forwardCGI_of_waiting (h := (h.received p).withLines
        (Response.init.headers.insertAll (done ++ more)) unread) hheaders
      rw [heq, hwait]
      refine .head (done ++ more) rest ?_ hin hheaders ?_ hout hrest hmore
      · rw [hfields, List.append_assoc]
      · unfold withLines received RequestContext.record
        dsimp only
        rw [hresponse]
    · rw [← hwith, ← OrderedMap.insertAll_append, ← hfields] at hparse
      have heq : (h.received p).parseCGIHeaders = _ := hparse
      rw [heq]
      exact receiving_endCGIHeaders hin hresponse hrest
  | body sofar hin hheaders hresponse hout hunread hread =>
    rw [readCGI_data sys p hin, if_pos hheaders]
    have hpositive : (h.received p).request.readBuffer.length > 0 := by
      show (h.request.readBuffer ++ p.bytes).length > 0
      rw [hread]
      exact List.length_pos_iff.mpr p.ne_nil
    rw [forwardCGI, if_pos ⟨hheaders, hpositive⟩]
    refine .body (sofar ++ p.bytes) hin hheaders hresponse ?_ ?_ rfl
    · show h.context.responseBuffer ++ (h.request.readBuffer ++ p.bytes) = _
      rw [hout, hread, List.nil_append, List.append_assoc]
    · rw [List.append_assoc]
      exact hunread

/-- All reads of a part of the output, by induction on the reads. -/
theorem receiving_receive {t : CgiText} {reads : List (Sys × Packet)} {h : Handler}
    {future : Bytes}
    (hreceiving : Receiving t h ((reads.map fun r => r.2.bytes).flatten ++ future)) :
    Receiving t (receive reads h) future := by
  induction reads generalizing h with
  | nil => exact hreceiving
  | cons r reads ih =>
    rw [List.map_cons, List.flatten_cons, List.append_assoc] at hreceiving
    exact ih (receiving_readCGI r.1 r.2 hreceiving)

theorem Receiving.cgiIn {t : CgiText} {h : Handler} {future : Bytes}
    (hreceiving : Receiving t h future) : h.context.requestState.cgiIn = false := by
  cases hreceiving with
  | head _ _ _ hin => exact hin
  | body _ hin => exact hin

/-- The handler once the whole output and the end of the file were read. -/
def receiveAll (reads : List (Sys × Packet)) (last : Sys) (h : Handler) : Handler :=
  (readCGI { last with recv := .closed } (receive reads h)).2

/-- The end of the file, after the whole output. -/
theorem Receiving.closed {t : CgiText} {h : Handler} (sys : Sys) (hreceiving : Receiving t h []) :
    (readCGI { sys with recv := .closed } h).2.context.responseBuffer =
        (cgiResponse (Response.init.headers.insertAll t.fields)).head ++ t.body ∧
      (readCGI { sys with recv := .closed } h).2.context.response =
        cgiResponse (Response.init.headers.insertAll t.fields) ∧
      (readCGI { sys with recv := .closed } h).2.context.requestState.isWorkComplete = true := by
  cases hreceiving with
  | head _ _ _ _ _ _ _ _ hmore => exact absurd rfl hmore
  | body sofar hin hheaders hresponse hout hunread hread =>
    rw [List.append_nil] at hunread
    rw [readCGI_closed sys hin hheaders, ← hunread]
    exact ⟨hout, hresponse, rfl⟩

/-- Nothing of the output has been read: the output buffer and the read buffer are empty, and the response
is a new one. -/
structure AwaitsOutput (h : Handler) : Prop where
  response : h.context.response = Response.init
  out : h.context.responseBuffer = []
  read : h.request.readBuffer = []
  cgiIn : h.context.requestState.cgiIn = false
  cgiHeaders : h.context.requestState.cgiHeaders = false

theorem AwaitsOutput.receiving {h : Handler} (hawaits : AwaitsOutput h) (t : CgiText) :
    Receiving t h t.stream :=
  .head [] t.fields rfl hawaits.cgiIn hawaits.cgiHeaders hawaits.response hawaits.out
    (by rw [hawaits.read]; rfl) (by unfold CgiText.stream; simp)

/-- However a text is cut into reads, the response is the one that its lines were gathered in, and the
body follows its head. -/
theorem AwaitsOutput.relays {h : Handler} (hawaits : AwaitsOutput h) (t : CgiText)
    {reads : List (Sys × Packet)} (hreads : bytesOf reads = t.stream)
    (last : Sys) :
    (receiveAll reads last h).context.responseBuffer =
        (cgiResponse (Response.init.headers.insertAll t.fields)).head ++ t.body ∧
      (receiveAll reads last h).context.response =
        cgiResponse (Response.init.headers.insertAll t.fields) ∧
      (receiveAll reads last h).context.requestState.isWorkComplete = true := by
  refine Receiving.closed last (receiving_receive ?_)
  rw [List.append_nil, ← bytesOf, hreads]
  exact hawaits.receiving t

/-- The output of a CGI is relayed by some reads and the end of the file: the client gets the status line, each
header once, the empty line and the body, and the work is complete at the end of the file and not before. -/
structure RelaysOutput (o : CgiOutput) (reads : List (Sys × Packet)) (last : Sys) (h : Handler) : Prop where
  response : ∃ headers : List (Bytes × Bytes), headers.Perm o.headers ∧
    (receiveAll reads last h).context.responseBuffer =
      o.statusLine ++ headerLines headers ++ crlf ++ o.body
  pending : ∀ before, before <+: reads →
    (receive before h).context.requestState.isWorkComplete = false
  complete : (receiveAll reads last h).context.requestState.isWorkComplete = true

/-- **The response of a CGI is relayed**, however its output is cut into reads, exactly when the code of its
`Status`, if it gives one, does not begin with a 0.  The code is kept as a number and printed as one, so a
leading zero is lost on the way; all else is relayed in any case. -/
theorem relaysOutput_iff (o : CgiOutput) {h : Handler} (hawaits : AwaitsOutput h)
    {reads : List (Sys × Packet)} (hreads : bytesOf reads = o.stream) (last : Sys) :
    RelaysOutput o reads last h ↔ o.PlainCode := by
  obtain ⟨hstream, -, hcomplete⟩ := hawaits.relays o.text hreads last
  obtain ⟨headers, hperm, hhead⟩ := o.exists_headers
  have hbuffer : (receiveAll reads last h).context.responseBuffer =
      (cgiResponse (Response.init.headers.insertAll o.fields)).statusLine ++
        (headerLines headers ++ crlf ++ o.body) := by
    rw [hstream]
    show (cgiResponse (Response.init.headers.insertAll o.fields)).head ++ o.body = _
    rw [hhead]
    simp only [List.append_assoc]
  constructor
  · rintro ⟨⟨headers', -, hresponse⟩, -, -⟩
    rw [hbuffer] at hresponse
    simp only [List.append_assoc] at hresponse
    exact o.plainCode_of_statusLine o.find?_status hresponse
  · intro hplain
    refine ⟨⟨headers, hperm, ?_⟩, ?_, hcomplete⟩
    · rw [hbuffer, o.statusLine_of_plainCode hplain o.find?_status]
      simp only [List.append_assoc]
    · rintro before ⟨after, rfl⟩
      have hsofar : Receiving o.text (receive before h) ((after.map fun r => r.2.bytes).flatten) := by
        refine receiving_receive ?_
        rw [← List.flatten_append, ← List.map_append, ← bytesOf, hreads]
        exact hawaits.receiving o.text
      rw [RequestState.isWorkComplete, hsofar.cgiIn, Bool.and_false, Bool.false_and]

/-- A handler whose CGI runs. -/
def cgiHandler : Handler where
  context := {
    server := .single 3 {} fun _ => 0
    requestState := { workIn := true, workOut := true, cgiOut := true }
    world := { fs := { table := fun _ => none } } }
  request := { kind := .get, path := {}, cgiPath := some (Path.ofString (bytes "/php")) }

def notFoundOutput : CgiOutput where
  fields := [(headerStatus, bytes "404 Not here"), (bytes "X", bytes "y")]
  body := bytes "hi"
  nodup := by decide
  key := by decide
  line := by decide
  status := by
    intro value hmem
    have hvalue : value = bytes "404 Not here" := by
      rcases List.mem_cons.mp hmem with heq | hmem
      · exact (Prod.mk.inj heq).2
      · have hother : headerStatus ≠ bytes "X" := by decide
        exact absurd (Prod.mk.inj (List.mem_singleton.mp hmem)).1 hother
    exact ⟨52, 48, 52, 78, bytes "ot here", by rw [hvalue]; decide, by decide⟩

/-- The output is cut in the end of a line and in the body. -/
def cutReads : List (Sys × Packet) :=
  [(.quiet 0, ⟨bytes "Status: 404 Not here\r", by decide, by decide⟩),
   (.quiet 1, ⟨bytes "\nX: y\r\n\r\nh", by decide, by decide⟩),
   (.quiet 2, ⟨bytes "i", by decide, by decide⟩)]

theorem awaitsOutput_cgiHandler : AwaitsOutput cgiHandler := ⟨rfl, rfl, rfl, rfl, rfl⟩

set_option maxRecDepth 10000 in
theorem relaysOutput_iff_cut : RelaysOutput notFoundOutput cutReads (.quiet 3) cgiHandler := by
  refine (relaysOutput_iff notFoundOutput awaitsOutput_cgiHandler (by decide) (.quiet 3)).mpr ?_
  intro value hstatus
  have hvalue : notFoundOutput.status? = some (bytes "404 Not here") := by decide
  obtain rfl := Option.some.inj (hvalue.symm.trans hstatus)
  decide

/-- A code that begins with zeros. -/
def agentOutput : CgiOutput where
  fields := [(headerStatus, bytes "007 Bond")]
  body := []
  nodup := by decide
  key := by decide
  line := by decide
  status := by
    intro value hmem
    have hvalue : value = bytes "007 Bond" := (Prod.mk.inj (List.mem_singleton.mp hmem)).2
    exact ⟨48, 48, 55, 66, bytes "ond", by rw [hvalue]; decide, by decide⟩

set_option maxRecDepth 10000 in
/-- The client gets the code 7. -/
theorem not_relaysOutput :
    let reads := [(Sys.quiet 0, ⟨bytes "Status: 007 Bond\r\n\r\n", by decide, by decide⟩)]
    bytesOf reads = agentOutput.stream ∧ AwaitsOutput cgiHandler ∧
      agentOutput.statusLine = bytes "HTTP/1.1 007 Bond\r\n" ∧
      (receiveAll reads (.quiet 1) cgiHandler).context.responseBuffer =
        bytes "HTTP/1.1 7 Bond\r\nServer: webserv/0.5\r\n\r\n" ∧
      ¬ RelaysOutput agentOutput reads (.quiet 1) cgiHandler := by
  intro reads
  have hbuffer : (receiveAll reads (.quiet 1) cgiHandler).context.responseBuffer =
      bytes "HTTP/1.1 7 Bond\r\nServer: webserv/0.5\r\n\r\n" := by decide
  have hline : agentOutput.statusLine = bytes "HTTP/1.1 007 Bond\r\n" := by decide
  refine ⟨by decide, awaitsOutput_cgiHandler, hline, hbuffer, ?_⟩
  rintro ⟨⟨headers, -, hresponse⟩, -, -⟩
  -- the tenth byte is the first of the code
  rw [hbuffer, hline, List.append_assoc, List.append_assoc] at hresponse
  have htenth := congrArg (fun l => l[9]?) hresponse
  rw [List.getElem?_append_left (by decide)] at htenth
  revert htenth
  decide

end Handler

end Webserv
