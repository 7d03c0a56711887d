import Webserv.BodyFraming
import Webserv.CgiBuilder

/-!
# The case of header names

The names of headers are kept as they were sent, and looked up as the server spells them.  Two heads that
differ in the case of letters in names have the same outcome where the names it looks up have the same last
values, and not in general.

* `Recased`: a line in which the case of letters of the name has changed.
* `requestLine_cases`: the request line does not look at what follows it.
* `names_recased`: the two runs.
* `names_spelled`: `host` is not `Host`.

## Why spelling is compared by capitals

Two names differ in case only when their capitals are the same.  The function that makes capitals leaves
alone whatever is not a letter, so the colon and the line ends of a line stay in their places, and a line
that was well formed stays so.  With this the two blocks have the same shape line by line, and their maps
have the same values under names that may differ.

## Why the names that are looked up matter

The server asks the map for `Host`, `Content-Length`, `Transfer-Encoding` and, for a CGI, `Content-Type`,
each in one spelling.  A name in another spelling is another key, and the header is as good as not there:
without `Host` the request is refused, and without `Content-Length` a POST has no length.  The condition
asks that these keys keep their last values.  It leaves all other names free, and where a line is malformed
it asks nothing, since the request is refused in both runs.
-/

namespace Webserv

open Search (findSub)

/-! ## Lines -/

/-- The characters before the letters have no case. -/
theorem toupper_eq_iff {c d : Byte} (hd : d < 65) : toupper c = d ↔ c = d := by
  unfold toupper
  split_ifs with hlower
  · have hle : 97 ≤ c.toNat := UInt8.le_iff_toNat_le.mp hlower.1
    have hsub : (c - 32).toNat = c.toNat - 32 :=
      UInt8.toNat_sub_of_le c 32 (UInt8.le_iff_toNat_le.mpr (le_trans (by decide) hle))
    have hlt : d.toNat < 65 := UInt8.lt_iff_toNat_lt.mp hd
    rw [← UInt8.toNat_inj, ← UInt8.toNat_inj, hsub]
    omega
  · rfl

/-- The case of letters in the name of a header line has changed, or nothing has. -/
inductive Recased : Bytes → Bytes → Prop
  | same (line : Bytes) : Recased line line
  | name {line name name' value : Bytes} (hfield : headerField line = some (name, value))
      (hname : name'.map toupper = name.map toupper) : Recased line (name' ++ bytes ": " ++ value)

namespace Recased

variable {line line' : Bytes}

theorem map_toupper (h : Recased line line') : line'.map toupper = line.map toupper := by
  cases h with
  | same => rfl
  | @name name name' value hfield hname =>
    obtain ⟨pos, hpos, heq⟩ := Option.map_eq_some_iff.mp hfield
    obtain ⟨rfl, rfl⟩ := Prod.mk.inj heq
    have hline : line = line.take pos ++ (bytes ": " ++ line.drop (pos + 2)) :=
      Search.eq_take_append_of_findSub hpos
    rw [List.append_assoc, List.map_append, hname, ← List.map_append, ← hline]

/-- What is not a letter stays in its place. -/
theorem findSub_eq (h : Recased line line') {w : Bytes} (hw : ∀ d ∈ w, d < 65) :
    findSub w line' = findSub w line := by
  have hmap : ∀ l : Bytes, findSub w (l.map toupper) = findSub w l :=
    Search.findSub_map fun d hd c => toupper_eq_iff (hw d hd)
  rw [← hmap line', h.map_toupper, hmap]

theorem isHeaderLine_iff (h : Recased line line') : IsHeaderLine line' ↔ IsHeaderLine line := by
  have hnil : line' = [] ↔ line = [] := by
    rw [← List.map_eq_nil_iff, h.map_toupper, List.map_eq_nil_iff]
  have hcrlf : crlf <:+: line' ↔ crlf <:+: line := by
    rw [← not_iff_not, ← Search.findSub_eq_none_iff, h.findSub_eq (by decide +kernel),
      Search.findSub_eq_none_iff]
  exact ⟨fun hline => ⟨fun heq => hline.ne_nil (hnil.mpr heq), fun hin => hline.no_crlf (hcrlf.mpr hin)⟩,
    fun hline => ⟨fun heq => hline.ne_nil (hnil.mp heq), fun hin => hline.no_crlf (hcrlf.mp hin)⟩⟩

/-- A line keeps its colon. -/
theorem isSome_headerField (h : Recased line line') :
    (headerField line').isSome = (headerField line).isSome := by
  rw [headerField, headerField, Option.isSome_map, Option.isSome_map, h.findSub_eq (by decide +kernel)]

/-- A line keeps its value, and its name up to case. -/
theorem headerField_eq {name name' value : Bytes} (hfield : headerField line = some (name, value))
    (hname : name'.map toupper = name.map toupper) :
    headerField (name' ++ bytes ": " ++ value) = some (name', value) := by
  obtain ⟨pos, hpos, heq⟩ := Option.map_eq_some_iff.mp hfield
  have hfind : findSub (bytes ": ") (name' ++ bytes ": " ++ value) = some pos :=
    (findSub_eq (.name hfield hname) (by decide +kernel)).trans hpos
  have hlength : name'.length = pos := by
    have hle : pos ≤ line.length := (Nat.le_add_right _ _).trans (Search.add_le_of_findSub hpos)
    have htake : name = line.take pos := (Prod.mk.inj heq).1.symm
    rw [← List.length_map toupper, hname, List.length_map, htake, List.length_take, min_eq_left hle]
  rw [headerField, hfind, ← hlength, Option.map_some, List.append_assoc, List.take_left,
    ← List.drop_drop, List.drop_left]
  rfl

end Recased

theorem headerFields_cons (line : Bytes) (lines : List Bytes) :
    headerFields (line :: lines) = (headerField line).toList ++ headerFields lines := by
  rw [headerFields, List.filterMap_cons]
  cases headerField line <;> rfl

/-- A name that is spelled as the server spells it, wherever it is the same but for its case, keeps its
last value. -/
theorem lastValue_recased {lines lines' : List Bytes} (h : List.Forall₂ Recased lines lines')
    {name : Bytes} (hspelled : ∀ f ∈ headerFields lines ++ headerFields lines',
      f.1.map toupper = name.map toupper → f.1 = name) :
    lastValue lines' name = lastValue lines name := by
  suffices hfilter : (headerFields lines').filter (fun f => f.1 = name) =
      (headerFields lines).filter fun f => f.1 = name by
    rw [lastValue, lastValue, hfilter]
  induction h with
  | nil => rfl
  | @cons line line' lines lines' hline hlines ih =>
    rw [headerFields_cons, headerFields_cons] at hspelled ⊢
    simp only [List.mem_append] at hspelled ih
    have hrest := ih fun f hf => hspelled f (hf.imp Or.inr Or.inr)
    rw [List.filter_append, List.filter_append, hrest]
    refine congrArg (· ++ _) ?_
    cases hline with
    | same => rfl
    | @name old new value hfield hname =>
      have hfield' := Recased.headerField_eq hfield hname
      rw [hfield, hfield'] at hspelled ⊢
      have hold := hspelled (old, value) (Or.inl (Or.inl List.mem_cons_self))
      have hnew := hspelled (new, value) (Or.inr (Or.inl List.mem_cons_self))
      by_cases hname' : old = name
      · have heq : new = name := hnew (by rw [hname, hname'])
        rw [heq, hname']
      · have hne : new ≠ name := fun heq => hname' (hold (by rw [← heq, hname]))
        simp [hname', hne]

namespace Client

variable {c : Client} {requestLine : Bytes} {lines lines' : List Bytes} {rest : Bytes}

/-- Nothing of the head has been read: neither the request line nor a header, and no status is set. -/
structure AwaitsRequest (c : Client) : Prop where
  requestLine : c.context.requestState.isReadRequestLineComplete = false
  headers : c.context.requestState.isReadHeadersComplete = false
  status : c.context.response.statusCode = statusNone
  none : c.context.headers = OrderedMap.empty
  request : c.request = .none

/-- The head arrives, and bytes after it. -/
def receiveRequest (c : Client) (requestLine : Bytes) (lines : List Bytes) (rest : Bytes) : Client :=
  { c with context := { c.context with buffer := requestLine ++ (crlf ++ (headerBlock lines ++ rest)) } }

/-- The parser of the request line touches neither the header map nor the bytes after the line. -/
theorem frame_parseMethod (ctx : RequestContext) (line : Bytes) :
    (ctx.parseMethod line).headers = ctx.headers ∧ (ctx.parseMethod line).buffer = ctx.buffer := by
  have hversion : ∀ (ctx : RequestContext) (line : Bytes),
      (ctx.parseVersion line).headers = ctx.headers ∧ (ctx.parseVersion line).buffer = ctx.buffer := by
    intro ctx line
    unfold RequestContext.parseVersion
    split_ifs <;> exact ⟨rfl, rfl⟩
  have hquery : ∀ ctx : RequestContext,
      ctx.splitQuery.headers = ctx.headers ∧ ctx.splitQuery.buffer = ctx.buffer := by
    intro ctx
    unfold RequestContext.splitQuery
    cases findSub [question] ctx.target <;> exact ⟨rfl, rfl⟩
  unfold RequestContext.parseMethod
  cases findSub [space] line with
  | none => exact ⟨rfl, rfl⟩
  | some pos =>
    dsimp only
    split_ifs
    · exact ⟨rfl, rfl⟩
    · unfold RequestContext.parseTarget
      cases findSub [space] (line.drop (pos + 1)) with
      | none => exact ⟨rfl, rfl⟩
      | some pos =>
        dsimp only
        split_ifs
        · exact ⟨rfl, rfl⟩
        · exact ⟨(hversion _ _).1.trans (hquery _).1, (hversion _ _).2.trans (hquery _).2⟩
    · exact ⟨rfl, rfl⟩

/-- What follows a refused request line is not looked at. -/
theorem parseHead_refused {ctx ctx' : RequestContext}
    (h : ctx.requestState.isReadRequestLineComplete = false)
    (hline : ctx.parseRequestLine = (.reqDone, ctx'))
    (hrefused : ctx'.requestState.isClientReadComplete = true) : ctx.parseHead = (.reqDone, ctx') := by
  obtain ⟨hread, hheaders⟩ := Bool.and_eq_true_iff.mp hrefused
  rw [RequestContext.parseHead_of_not_requestLine h hline hread,
    RequestContext.parseHead_of_requestLine hread]
  exact if_pos hheaders

/-- **The request line.**  It is refused or read whatever follows it, with the same context but for the
bytes behind it. -/
theorem requestLine_cases (h : c.AwaitsRequest) (hline : ¬ crlf <:+: requestLine) :
    (∃ ctx : RequestContext, ctx.response.statusCode ≠ statusNone ∧ ∀ lines rest, ∃ buffer,
      (c.receiveRequest requestLine lines rest).context.parseHead =
        (.reqDone, { ctx with buffer := buffer })) ∨
    ∃ c₁ : Client, c₁.AwaitsHeaders ∧ ∀ sys lines rest,
      (c.receiveRequest requestLine lines rest).parseRequest sys =
        (c₁.receiveHeaders lines rest).parseRequest sys := by
  have hfind : ∀ lines rest,
      findSub crlf (c.receiveRequest requestLine lines rest).context.buffer = some requestLine.length :=
    fun lines rest => Search.findSub_append_pair (by decide) hline _
  have hawaits : ∀ lines rest, (c.receiveRequest requestLine lines
      rest).context.requestState.isReadRequestLineComplete = false := fun _ _ => h.requestLine
  by_cases hlong : requestLine.length > requestLineLimit
  · refine Or.inl ⟨c.context.refuse statusBadRequest,
      (by show statusBadRequest ≠ statusNone; decide), fun lines rest =>
        ⟨requestLine ++ (crlf ++ (headerBlock lines ++ rest)), parseHead_refused (hawaits lines rest) ?_ rfl⟩⟩
    rw [RequestContext.parseRequestLine, RequestContext.find_crlf, hfind]
    exact if_pos hlong
  · -- the line is parsed on its own, and what follows it stays in the buffer
    have hread : ∀ lines rest, (c.receiveRequest requestLine lines rest).context.parseRequestLine =
        (.reqDone, RequestContext.more ({ c.context with buffer := [] }.parseMethod requestLine)
          (headerBlock lines ++ rest)) := by
      intro lines rest
      have htake : (requestLine ++ (crlf ++ (headerBlock lines ++ rest))).take requestLine.length =
          requestLine := List.take_left
      have hdrop : (requestLine ++ (crlf ++ (headerBlock lines ++ rest))).drop (requestLine.length + 2) =
          headerBlock lines ++ rest := by
        rw [← List.drop_drop, List.drop_left]
        rfl
      rw [RequestContext.parseRequestLine, RequestContext.find_crlf, hfind]
      dsimp only
      rw [if_neg hlong, ← RequestContext.parseMethod_more, BinaryBuffer.substr_zero,
        BinaryBuffer.erase_zero, receiveRequest, htake, hdrop]
      rfl
    have hstep := RequestContext.headStep_parseMethod c.context ⟨[], c.context.method, c.context.target,
      c.context.protocolVersion, c.context.queries, c.context.headers⟩ requestLine
    change RequestContext.HeadStep _ _ (Ret.reqDone,
      RequestContext.parseMethod { c.context with buffer := [] } requestLine) at hstep
    obtain ⟨hheaders, hbuffer⟩ := frame_parseMethod { c.context with buffer := [] } requestLine
    generalize RequestContext.parseMethod { c.context with buffer := [] } requestLine = ctx
      at hread hstep hheaders hbuffer
    have hmore : ∀ b : Bytes, ctx.more b = { ctx with buffer := b } := fun b => by
      rw [RequestContext.more, hbuffer, List.nil_append]
    simp only [hmore] at hread
    cases hstep with
    | refuse f code hcode =>
      refine Or.inl ⟨(c.context.withHead f).refuse code, ?_, fun lines rest =>
        ⟨headerBlock lines ++ rest, parseHead_refused (hawaits lines rest) (hread lines rest) rfl⟩⟩
      rintro (hnone : code = statusNone)
      rw [hnone] at hcode
      exact absurd hcode (by decide)
    | done f =>
      have hawaitsHeaders : Client.AwaitsHeaders { c with
          context := (c.context.withHead f).setState RequestState.setReadRequestLineComplete } :=
        ⟨rfl, h.headers, h.status, hheaders.trans h.none, h.request⟩
      refine Or.inr ⟨_, hawaitsHeaders, fun sys lines rest => ?_⟩
      have hhead := RequestContext.parseHead_of_not_requestLine (hawaits lines rest) (hread lines rest) rfl
      rw [parseRequest, hhead]
      rfl

theorem headers_resolveARequest (sys : Sys) (c : Client) :
    (c.resolveARequest sys).2.context.headers = c.context.headers := by
  have hsame := @resolveARequest_withHeaders sys c c.context.headers rfl ⟨rfl, fun _ => rfl⟩
  exact congrArg (fun r : Ret × Client => r.2.context.headers) hsame

/-- A request object has the header map of the lines. -/
theorem headers_parseRequest (sys : Sys) (h : c.AwaitsHeaders) (hlines : ∀ l ∈ lines, IsHeaderLine l) :
    ((c.receiveHeaders lines rest).parseRequest sys).2.request = none ∨
      ((c.receiveHeaders lines rest).parseRequest sys).2.context.headers = headerMap lines := by
  have hhead : Head c sys lines rest ((c.receiveHeaders lines rest).parseRequest sys) :=
    head_parseRequest sys h hlines
  generalize (c.receiveHeaders lines rest).parseRequest sys = r at hhead ⊢
  cases hhead with
  | refused buffer headers hreason => exact Or.inl h.request
  | read _ =>
    have hheaders := headers_resolveARequest sys ((c.headersRead rest).withHeaders (headerMap lines))
    generalize ((c.headersRead rest).withHeaders (headerMap lines)).resolveARequest sys = r at hheaders ⊢
    obtain ⟨ret, c'⟩ := r
    refine Or.inr ?_
    cases ret <;> exact hheaders

/-! ## Two heads -/

/-- What holds of each line holds of each recased line. -/
theorem forall_mem_iff_of_recased {P Q : Bytes → Prop} (hPQ : ∀ l l', Recased l l' → (Q l' ↔ P l))
    (h : List.Forall₂ Recased lines lines') : (∀ l ∈ lines', Q l) ↔ ∀ l ∈ lines, P l := by
  induction h with
  | nil => simp
  | cons hline hlines ih => rw [List.forall_mem_cons, List.forall_mem_cons, hPQ _ _ hline, ih]

theorem refused_of_malformed (h : ¬ ∀ l ∈ lines, (headerField l).isSome = true) : Refused lines := by
  refine Or.inl ?_
  simpa using h

theorem refused_iff_of_formed (h : ∀ l ∈ lines, (headerField l).isSome = true) :
    Refused lines ↔ lastValue lines headerHost = none := by
  refine ⟨fun hrefused => hrefused.resolve_left ?_, Or.inr⟩
  rintro ⟨l, hl, hnone⟩
  have hsome := h l hl
  rw [hnone] at hsome
  cases hsome

/-- The two runs after the request line.  They agree on what was gathered up to case, and the lookups are
what tells them apart. -/
theorem parseRequest_recased (sys : Sys) (h : c.AwaitsHeaders) (hlines : ∀ l ∈ lines, IsHeaderLine l)
    (hrecased : List.Forall₂ Recased lines lines')
    (hspelled : (∀ l ∈ lines, (headerField l).isSome = true) → SameValues lines lines') :
    ((c.receiveHeaders lines' rest).parseRequest sys).1 =
        ((c.receiveHeaders lines rest).parseRequest sys).1 ∧
      SameButHead ((c.receiveHeaders lines rest).parseRequest sys).2
        ((c.receiveHeaders lines' rest).parseRequest sys).2 := by
  have hlines' : ∀ l ∈ lines', IsHeaderLine l :=
    (forall_mem_iff_of_recased (fun _ _ hline => hline.isHeaderLine_iff) hrecased).mpr hlines
  have hfields : (∀ l ∈ lines', (headerField l).isSome = true) ↔
      ∀ l ∈ lines, (headerField l).isSome = true :=
    forall_mem_iff_of_recased (fun _ _ hline => by rw [hline.isSome_headerField]) hrecased
  by_cases hformed : ∀ l ∈ lines, (headerField l).isSome = true
  · have hsame := hspelled hformed
    have hrefused : Refused lines' ↔ Refused lines := by
      rw [refused_iff_of_formed hformed, refused_iff_of_formed (hfields.mpr hformed), hsame.host]
    by_cases hr : Refused lines
    · exact parseRequest_agree_of_refused sys h hlines hlines' hr (hrefused.mpr hr)
    · exact parseRequest_agree sys h hlines hlines' hr (fun hr' => hr (hrefused.mp hr')) hsame
  · exact parseRequest_agree_of_refused sys h hlines hlines' (refused_of_malformed hformed)
      (refused_of_malformed fun h => hformed (hfields.mp h))

/-- The value of a variable without a prefix, in the CGI of the request. -/
def contentVariable (clientIP : Bytes) (x : CgiBuilder.ContentHeader) (c : Client) : Option Bytes :=
  c.request.bind fun request =>
    CgiBuilder.getenv (CgiBuilder.envp clientIP ⟨c.context, request⟩) x.envName

theorem contentVariable_eq {c' : Client} {x : CgiBuilder.ContentHeader} (clientIP : Bytes)
    (hrequest : c'.request = c.request)
    (hfind : c.request = none ∨ c'.context.headers.find? x.header = c.context.headers.find? x.header) :
    c'.contentVariable clientIP x = c.contentVariable clientIP x := by
  rw [contentVariable, contentVariable, hrequest]
  cases hfresh : c.request with
  | none => rfl
  | some request =>
    have hvalue := hfind.resolve_left fun hnone => by
      rw [hfresh] at hnone
      cases hnone
    rw [Option.bind_some, Option.bind_some, CgiBuilder.getenv_contentVariable,
      CgiBuilder.getenv_contentVariable, hvalue]

/-- **The case of header names.**  Let the case of letters in header names be changed so that, unless a
line is malformed, `Host`, `Content-Length` and, without a `Content-Length`, `Transfer-Encoding`, spelled
so, keep their last values.  Then the two heads have the same answer, virtual host and framing; and a
variable of the CGI is the same where its header keeps its last value too. -/
theorem names_recased (sys : Sys) (h : c.AwaitsRequest) (hline : ¬ crlf <:+: requestLine)
    (hlines : ∀ l ∈ lines, IsHeaderLine l) (hrecased : List.Forall₂ Recased lines lines')
    (hspelled : (∀ l ∈ lines, (headerField l).isSome = true) → SameValues lines lines') :
    let r := (c.receiveRequest requestLine lines rest).parseRequest sys
    let r' := (c.receiveRequest requestLine lines' rest).parseRequest sys
    r'.1 = r.1 ∧
      r'.2.context.response.statusCode = r.2.context.response.statusCode ∧
      r'.2.context.requestState = r.2.context.requestState ∧
      r'.2.context.serverBlock = r.2.context.serverBlock ∧
      r'.2.framing = r.2.framing ∧
      ∀ clientIP x, lastValue lines' x.header = lastValue lines x.header →
        r'.2.contentVariable clientIP x = r.2.contentVariable clientIP x := by
  intro r r'
  have hlines' : ∀ l ∈ lines', IsHeaderLine l :=
    (forall_mem_iff_of_recased (fun _ _ hline => hline.isHeaderLine_iff) hrecased).mpr hlines
  obtain ⟨⟨hret, buffer, headers, hclient⟩, hvariable⟩ :
      (r'.1 = r.1 ∧ SameButHead r.2 r'.2) ∧
        ∀ clientIP x, lastValue lines' x.header = lastValue lines x.header →
          r'.2.contentVariable clientIP x = r.2.contentVariable clientIP x := by
    rcases requestLine_cases h hline with ⟨ctx, hstatus, hhead⟩ | ⟨c₁, hc₁, hparse⟩
    · obtain ⟨buffer, hr⟩ := hhead lines rest
      obtain ⟨buffer', hr'⟩ := hhead lines' rest
      have hr : r = _ := parseRequest_refused hr hstatus
      have hr' : r' = _ := parseRequest_refused hr' hstatus
      rw [hr, hr']
      exact ⟨⟨rfl, buffer', ctx.headers, rfl⟩, fun clientIP x _ =>
        contentVariable_eq clientIP rfl (Or.inl h.request)⟩
    · have hr : r = _ := hparse sys lines rest
      have hr' : r' = _ := hparse sys lines' rest
      have hagree := @parseRequest_recased c₁ lines lines' rest sys hc₁ hlines hrecased hspelled
      have hheaders := @headers_parseRequest c₁ lines rest sys hc₁ hlines
      have hheaders' := @headers_parseRequest c₁ lines' rest sys hc₁ hlines'
      rw [← hr, ← hr'] at hagree
      rw [← hr] at hheaders
      rw [← hr'] at hheaders'
      refine ⟨hagree, fun clientIP x hvalue => ?_⟩
      have hrequest : r'.2.request = r.2.request := by
        obtain ⟨-, buffer, headers, hclient⟩ := hagree
        rw [hclient]
      refine contentVariable_eq clientIP hrequest ?_
      rcases hheaders with hnone | hmap
      · exact Or.inl hnone
      rcases hheaders' with hnone | hmap'
      · exact Or.inl (hrequest.symm.trans hnone)
      · refine Or.inr ?_
        rw [hmap, hmap', find?_headerMap, find?_headerMap, hvalue]
  exact ⟨hret, by rw [hclient], by rw [hclient], by rw [hclient],
    SameButHead.framing ⟨buffer, headers, hclient⟩, hvariable⟩

end Client
/-! ## Names in another case -/

/-- A server with two hosts, of which the second has no location; the first runs `.php` files. -/
def scriptServer : Server where
  serverBlocks := OrderedMap.empty.insert 3 [
    { names := [bytes "a"]
      locations := [{
        path := Path.ofString (bytes "/")
        root := Path.ofString (bytes "/r/")
        maxBodySize := 100
        maxBodySize_le := hundred_le_int32Max
        allowed := 2
        gcis := OrderedMap.empty.insert (bytes "php") (Path.ofString (bytes "/php")) }] },
    { names := [bytes "b"] }]
  timeouts _ := 0
  mimetypes := OrderedMap.empty

def scriptClient : Client :=
  .init scriptServer { table := fun p => if p = bytes "/php" then some { kind := .regular [] } else none } 3 4 0

theorem awaitsRequest_scriptClient : scriptClient.AwaitsRequest := ⟨rfl, rfl, rfl, rfl, rfl⟩

/-- The client after a POST to a script, with these header lines. -/
def scriptRun (lines : List Bytes) : Client :=
  ((scriptClient.receiveRequest (bytes "POST /x.php HTTP/1.1") lines []).parseRequest (Sys.quiet 0)).2

abbrev lineText (name value : String) : Bytes := bytes name ++ bytes ": " ++ bytes value

theorem recased_lineText {name name' value : String}
    (hfield : headerField (lineText name value) = some (bytes name, bytes value))
    (hname : (bytes name').map toupper = (bytes name).map toupper) :
    Recased (lineText name value) (lineText name' value) :=
  .name hfield hname

set_option maxRecDepth 10000 in
theorem names_recased_accept :
    (scriptRun [lineText "Host" "a", lineText "Content-Length" "3", lineText "accept" "b"]).framing =
      (scriptRun [lineText "Host" "a", lineText "Content-Length" "3", lineText "ACCEPT" "b"]).framing := by
  have hrecased : List.Forall₂ Recased
      [lineText "Host" "a", lineText "Content-Length" "3", lineText "ACCEPT" "b"]
      [lineText "Host" "a", lineText "Content-Length" "3", lineText "accept" "b"] :=
    .cons (.same _) (.cons (.same _) (.cons (recased_lineText (by decide +kernel) (by decide +kernel)) .nil))
  have hrun := @Client.names_recased scriptClient (bytes "POST /x.php HTTP/1.1") _ _ [] (Sys.quiet 0)
    awaitsRequest_scriptClient (by decide +kernel) (by decide +kernel) hrecased
    fun _ => ⟨by decide +kernel, by decide +kernel, by decide +kernel⟩
  exact hrun.2.2.2.2.1

set_option maxRecDepth 10000 in
/-- `host`, `content-length` and `content-type` are not the headers the server looks up. -/
theorem names_spelled :
    scriptClient.AwaitsRequest ∧
      (∃ lines lines' : List Bytes, (∀ l ∈ lines, IsHeaderLine l) ∧ List.Forall₂ Recased lines lines' ∧
        (scriptRun lines).framing = .contentLength 3 ∧ (scriptRun lines').framing = .answered 400) ∧
      (∃ lines lines' : List Bytes, (∀ l ∈ lines, IsHeaderLine l) ∧ List.Forall₂ Recased lines lines' ∧
        (scriptRun lines).context.serverBlock.map ServerBlock.names = some [bytes "a"] ∧
          (scriptRun lines').context.serverBlock.map ServerBlock.names = some [bytes "b"]) ∧
      (∃ lines lines' : List Bytes, (∀ l ∈ lines, IsHeaderLine l) ∧ List.Forall₂ Recased lines lines' ∧
        (scriptRun lines).framing = .contentLength 3 ∧ (scriptRun lines').framing = .answered 411) ∧
      ∃ lines lines' : List Bytes, (∀ l ∈ lines, IsHeaderLine l) ∧ List.Forall₂ Recased lines lines' ∧
        (scriptRun lines).contentVariable [] .contentType = some (bytes "t") ∧
          (scriptRun lines').contentVariable [] .contentType = none := by
  refine ⟨awaitsRequest_scriptClient, ?_, ?_, ?_, ?_⟩
  · exact ⟨[lineText "Host" "a", lineText "Content-Length" "3"],
      [lineText "host" "a", lineText "Content-Length" "3"], by decide +kernel,
      .cons (recased_lineText (by decide +kernel) (by decide +kernel)) (.cons (.same _) .nil), by decide +kernel,
      by decide +kernel⟩
  · exact ⟨[lineText "Host" "a", lineText "host" "b", lineText "Content-Length" "3"],
      [lineText "Host" "a", lineText "Host" "b", lineText "Content-Length" "3"], by decide +kernel,
      .cons (.same _) (.cons (recased_lineText (by decide +kernel) (by decide +kernel)) (.cons (.same _) .nil)),
      by decide +kernel, by decide +kernel⟩
  · exact ⟨[lineText "Host" "a", lineText "Content-Length" "3"],
      [lineText "Host" "a", lineText "content-length" "3"], by decide +kernel,
      .cons (.same _) (.cons (recased_lineText (by decide +kernel) (by decide +kernel)) .nil), by decide +kernel,
      by decide +kernel⟩
  · exact ⟨[lineText "Host" "a", lineText "Content-Length" "3", lineText "Content-Type" "t"],
      [lineText "Host" "a", lineText "Content-Length" "3", lineText "content-type" "t"],
      by decide +kernel,
      .cons (.same _) (.cons (.same _) (.cons (recased_lineText (by decide +kernel) (by decide +kernel)) .nil)),
      by decide +kernel, by decide +kernel⟩

end Webserv
