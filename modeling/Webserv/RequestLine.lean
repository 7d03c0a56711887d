import Webserv.HeadParsing

/-!
# Request lines

`_parseRequestLine` waits for the first line end, and the limit is tested on the size of the buffer as long
as there is none.  A line of exactly the limit whose CR has arrived without its LF fails that test.  The
line is then cut at its first two spaces.

* `RequestForm`, `UnknownMethod`: what a line can be.
* `requestLine_grammar`: which lines are accepted, and with which status the others are refused.
* `refusedForLength_iff`: which streams are refused for their length.
* `lengthLimit_iff`: the streams for which that is what the limit says.

## Why the line has three parts

The parser cuts at the first space and then at the next one, and whatever is left is the version.  A line in
this form has its method, target and version determined by the line (`RequestForm.unique`).  The three
refusals are the three ways not to be accepted: the first word is no method, with 405; the version is
another one, with 505; and anything else, with 400.  What is tested first decides between them, so an
unknown method in a line without a target is still a 405.  The query is a part of the target until the
target is accepted.

## Why the limit needs two tests

A line can be too long before its end has arrived.  So the code tests the size of the buffer when there is
no line end in it, and the position of the line end when there is one.  For a line that is longer than the
limit the two agree.  For a line of exactly the limit they do not: with the CR in the buffer and the LF
missing, the buffer is one byte longer than the limit.  `lengthLimit_iff` states that this cut is the only
one at which a stream is judged in the wrong way.
-/

namespace Webserv

open Search (findSub)

namespace RequestContext

/-! ## The words of a line -/

/-- A method, a space, a target, a space, and the rest.  The target has no space and begins with a slash, so
that a line has one such form. -/
structure RequestForm (line : Bytes) (m : Method) (target version : Bytes) : Prop where
  name : ∃ name, (name, m) ∈ Method.methods ∧ line = name ++ space :: (target ++ space :: version)
  no_space : space ∉ target
  slash : target.head? = some slash

/-- A space ends a first word that is not empty and no method. -/
def UnknownMethod (line : Bytes) : Prop :=
  ∃ word tail, line = word ++ space :: tail ∧ space ∉ word ∧ word ≠ [] ∧ ∀ m, (word, m) ∉ Method.methods

theorem space_notMem_name {name : Bytes} {m : Method} (h : (name, m) ∈ Method.methods) : space ∉ name := by
  have hall : ∀ p ∈ Method.methods, space ∉ p.1 := by decide
  exact hall _ h

theorem name_ne_nil {name : Bytes} {m : Method} (h : (name, m) ∈ Method.methods) : name ≠ [] := by
  have hall : ∀ p ∈ Method.methods, p.1 ≠ [] := by decide
  exact hall _ h

/-- The class of a method name. -/
theorem ofString_of_mem {name : Bytes} {m : Method} (h : (name, m) ∈ Method.methods) :
    Method.ofString name = m ∧ m.isValid = true := by
  have hall : ∀ p ∈ Method.methods, Method.ofString p.1 = p.2 ∧ p.2.isValid = true := by decide
  exact hall _ h

theorem ofString_of_notMem {word : Bytes} (h : ∀ m, (word, m) ∉ Method.methods) :
    Method.ofString word = .invalMethod := by
  rw [Method.ofString, List.lookup_eq_none_iff.mpr]
  · rfl
  · rintro ⟨name, m⟩ hmem
    refine bne_iff_ne.mpr ?_
    rintro rfl
    exact h m hmem

variable {line target target' version version' : Bytes} {m m' : Method}

theorem RequestForm.unique (h : RequestForm line m target version)
    (h' : RequestForm line m' target' version') : m = m' ∧ target = target' ∧ version = version' := by
  obtain ⟨⟨name, hname, hline⟩, hspace, -⟩ := h
  obtain ⟨⟨name', hname', hline'⟩, hspace', -⟩ := h'
  rw [hline] at hline'
  obtain ⟨rfl, hrest⟩ :=
    Search.append_cons_inj (space_notMem_name hname) (space_notMem_name hname') hline'
  obtain ⟨rfl, rfl⟩ := Search.append_cons_inj hspace hspace' hrest
  exact ⟨(ofString_of_mem hname).1.symm.trans (ofString_of_mem hname').1, rfl, rfl⟩

theorem RequestForm.not_unknown (h : RequestForm line m target version) : ¬ UnknownMethod line := by
  obtain ⟨⟨name, hname, hline⟩, -, -⟩ := h
  rintro ⟨word, tail, hline', hword, -, hunknown⟩
  rw [hline] at hline'
  obtain ⟨rfl, -⟩ := Search.append_cons_inj (space_notMem_name hname) hword hline'
  exact hunknown m hname

/-- A string has no space, or it is cut at the first one. -/
theorem word_cases (str : Bytes) :
    space ∉ str ∨ ∃ word tail, str = word ++ space :: tail ∧ space ∉ word := by
  by_cases h : space ∈ str
  · obtain ⟨word, tail, heq, hword⟩ := List.eq_append_cons_of_mem h
    exact Or.inr ⟨word, tail, heq, hword⟩
  · exact Or.inl h

/-! ## The parser on the words -/

/-- The context after the method and the target were read. -/
def withTarget (ctx : RequestContext) (m : Method) (target : Bytes) : RequestContext :=
  { ctx with method := m, target := target }.splitQuery

/-- The query is split off without a look at the rest. -/
theorem splitQuery_frame (ctx : RequestContext) :
    ctx.splitQuery.response = ctx.response ∧ ctx.splitQuery.method = ctx.method ∧
      ctx.splitQuery.buffer = ctx.buffer := by
  rw [splitQuery]
  cases findSub [question] ctx.target <;> exact ⟨rfl, rfl, rfl⟩

@[simp] theorem withTarget_response (ctx : RequestContext) (m : Method) (target : Bytes) :
    (ctx.withTarget m target).response = ctx.response :=
  (splitQuery_frame _).1

@[simp] theorem withTarget_method (ctx : RequestContext) (m : Method) (target : Bytes) :
    (ctx.withTarget m target).method = m :=
  (splitQuery_frame _).2.1

@[simp] theorem withTarget_buffer (ctx : RequestContext) (m : Method) (target : Bytes) :
    (ctx.withTarget m target).buffer = ctx.buffer :=
  (splitQuery_frame _).2.2

theorem parseMethod_cut (ctx : RequestContext) {word tail : Bytes} (hword : space ∉ word) :
    ctx.parseMethod (word ++ space :: tail) =
      if word = [] then ctx.refuse statusBadRequest
      else if ¬ (Method.ofString word).isValid then
        { ctx with method := Method.ofString word }.refuse statusMethodNotAllowed
      else { ctx with method := Method.ofString word }.parseTarget tail := by
  have hdrop : (word ++ space :: tail).drop (word.length + 1) = tail := by
    rw [← List.drop_drop, List.drop_left]
    rfl
  rw [parseMethod, Search.findSub_singleton_append hword]
  dsimp only
  rw [List.take_left, hdrop]

theorem parseTarget_cut (ctx : RequestContext) {word tail : Bytes} (hword : space ∉ word) :
    ctx.parseTarget (word ++ space :: tail) =
      if word.head? ≠ some slash then { ctx with target := word }.refuse statusBadRequest
      else { ctx with target := word }.splitQuery.parseVersion tail := by
  have hdrop : (word ++ space :: tail).drop (word.length + 1) = tail := by
    rw [← List.drop_drop, List.drop_left]
    rfl
  rw [parseTarget, Search.findSub_singleton_append hword]
  dsimp only
  rw [List.take_left, hdrop]

/-- What the parser makes of a line without line end: it gets as far as the version, the method is
unknown, or the line is refused as malformed. -/
inductive Cut (ctx : RequestContext) (line : Bytes) : RequestContext → Prop where
  | form {m : Method} {target version : Bytes} (h : RequestForm line m target version) :
      Cut ctx line ((ctx.withTarget m target).parseVersion version)
  | unknown (h : UnknownMethod line) :
      Cut ctx line ({ ctx with method := .invalMethod }.refuse statusMethodNotAllowed)
  | malformed (hform : ∀ m target version, ¬ RequestForm line m target version)
      (hunknown : ¬ UnknownMethod line) (method : Method) (target : Bytes) :
      Cut ctx line ({ ctx with method := method, target := target }.refuse statusBadRequest)

theorem cut_parseMethod (ctx : RequestContext) (line : Bytes) : Cut ctx line (ctx.parseMethod line) := by
  rcases word_cases line with hnone | ⟨word, tail, rfl, hword⟩
  · -- no space at all
    have heq : ctx.parseMethod line = ctx.refuse statusBadRequest := by
      rw [parseMethod, Search.findSub_singleton_eq_none hnone]
    rw [heq]
    refine .malformed ?_ ?_ ctx.method ctx.target
    · rintro m target version ⟨⟨name, -, rfl⟩, -, -⟩
      exact hnone (by simp)
    · rintro ⟨word, tail, rfl, -⟩
      exact hnone (by simp)
  rw [parseMethod_cut ctx hword]
  by_cases hempty : word = []
  · rw [if_pos hempty]
    refine .malformed ?_ ?_ ctx.method ctx.target
    · rintro m target version ⟨⟨name, hname, hline⟩, -, -⟩
      obtain ⟨rfl, -⟩ := Search.append_cons_inj hword (space_notMem_name hname) hline
      exact name_ne_nil hname hempty
    · rintro ⟨word', tail', hline, hword', hne, -⟩
      obtain ⟨rfl, -⟩ := Search.append_cons_inj hword hword' hline
      exact hne hempty
  rw [if_neg hempty]
  by_cases hknown : ∃ m, (word, m) ∈ Method.methods
  · obtain ⟨m, hname⟩ := hknown
    obtain ⟨hofString, hvalid⟩ := ofString_of_mem hname
    rw [hofString, if_neg (not_not.mpr hvalid)]
    have hunknown : ¬ UnknownMethod (word ++ space :: tail) := by
      rintro ⟨word', tail', hline, hword', -, hnot⟩
      obtain ⟨rfl, -⟩ := Search.append_cons_inj hword hword' hline
      exact hnot m hname
    -- a form of the line has this method, and its target is the next word
    have hrest : ∀ {m' target version}, RequestForm (word ++ space :: tail) m' target version →
        tail = target ++ space :: version := by
      rintro m' target version ⟨⟨name, hname', hline⟩, -, -⟩
      exact (Search.append_cons_inj hword (space_notMem_name hname') hline).2
    rcases word_cases tail with hnone | ⟨target, version, rfl, htarget⟩
    · have heq : { ctx with method := m }.parseTarget tail =
          { ctx with method := m }.refuse statusBadRequest := by
        rw [parseTarget, Search.findSub_singleton_eq_none hnone]
      rw [heq]
      refine .malformed (fun m' target version hform => hnone ?_) hunknown m ctx.target
      rw [hrest hform]
      simp
    rw [parseTarget_cut _ htarget]
    by_cases hslash : target.head? = some slash
    · rw [if_neg (not_not.mpr hslash)]
      exact .form ⟨⟨word, hname, rfl⟩, htarget, hslash⟩
    · rw [if_pos hslash]
      refine .malformed (fun m' target' version' hform => hslash ?_) hunknown m target
      obtain ⟨rfl, -⟩ := Search.append_cons_inj htarget hform.no_space (hrest hform)
      exact hform.slash
  · have hunknown : ∀ m, (word, m) ∉ Method.methods := fun m hmem => hknown ⟨m, hmem⟩
    rw [ofString_of_notMem hunknown, if_pos (by decide)]
    exact .unknown ⟨word, tail, rfl, hword, hempty, hunknown⟩

/-! ## Request lines -/

/-- `HTTP_PROTOCOL_VERSION`. -/
abbrev protocolVersion11 : Bytes := bytes "HTTP/1.1"

/-- The target without its query, and the query. -/
theorem splitQuery_eq (ctx : RequestContext) (target : Bytes) :
    ({ ctx with target := target }.splitQuery).target = target.takeWhile (· ≠ question) ∧
      ({ ctx with target := target }.splitQuery).queries.queryLine =
        if question ∈ target then (target.dropWhile (· ≠ question)).tail else ctx.queries.queryLine := by
  unfold splitQuery
  by_cases h : question ∈ target
  · obtain ⟨before, after, rfl, hbefore⟩ := List.eq_append_cons_of_mem h
    have hpass : ∀ c ∈ before, decide (c ≠ question) = true := fun c hc =>
      decide_eq_true fun heq => hbefore (heq ▸ hc)
    have hdrop : (before ++ question :: after).drop (before.length + 1) = after := by
      rw [← List.drop_drop, List.drop_left]
      rfl
    rw [if_pos h, Search.findSub_singleton_append hbefore, List.takeWhile_append_of_pos hpass,
      List.dropWhile_append_of_pos hpass]
    dsimp only
    rw [List.take_left, hdrop]
    simp [Queries.ofString]
  · have hpass : ∀ c ∈ target, decide (c ≠ question) = true := fun c hc =>
      decide_eq_true fun heq => h (heq ▸ hc)
    rw [if_neg h, Search.findSub_singleton_eq_none h, List.takeWhile_eq_self_iff.mpr hpass]
    exact ⟨rfl, rfl⟩

/-- The three ends of a line with a method and a target. -/
theorem parseVersion_cases (ctx : RequestContext) (version : Bytes) :
    (version = [] ∧
        ctx.parseVersion version = { ctx with protocolVersion := version }.refuse statusBadRequest) ∨
      (version ≠ [] ∧ version ≠ protocolVersion11 ∧ ctx.parseVersion version =
        { ctx with protocolVersion := version }.refuse statusHttpVersionNotSupported) ∨
      (version = protocolVersion11 ∧ ctx.parseVersion version =
        { ctx with protocolVersion := version }.setState RequestState.setReadRequestLineComplete) := by
  by_cases hempty : version = []
  · exact Or.inl ⟨hempty, if_pos hempty⟩
  by_cases hversion : version = protocolVersion11
  · refine Or.inr (Or.inr ⟨hversion, ?_⟩)
    rw [parseVersion, if_neg hempty, if_neg (not_not.mpr hversion)]
  · refine Or.inr (Or.inl ⟨hempty, hversion, ?_⟩)
    rw [parseVersion, if_neg hempty, if_pos hversion]

/-- A line that arrives whole is cut from the buffer and parsed. -/
theorem parseRequestLine_line {ctx : RequestContext} {line rest : Bytes}
    (hbuffer : ctx.buffer = line ++ (crlf ++ rest)) (hline : ¬ crlf <:+: line)
    (hlength : line.length ≤ requestLineLimit) :
    ctx.parseRequestLine = (.reqDone, { ctx with buffer := rest }.parseMethod line) := by
  have hfind : findSub crlf ctx.buffer = some line.length := by
    rw [hbuffer]
    exact Search.findSub_append_pair (by decide) hline rest
  have hdrop : (line ++ (crlf ++ rest)).drop (line.length + 2) = rest := by
    rw [← List.drop_drop, List.drop_left]
    rfl
  rw [parseRequestLine, find_crlf, hfind]
  dsimp only
  rw [if_neg (by omega), BinaryBuffer.substr_zero, BinaryBuffer.erase_zero, hbuffer, List.take_left, hdrop]

/-- **Request lines.**  A line of at most the limit is accepted exactly when it is a method, a space, a
target that begins with a slash and holds no space, a space and the version; then these are its parts.
Every other line is refused, with 405 when a space ends a first word that is no method, with 505 when only
the version is wrong, and with 400 in all other cases. -/
theorem requestLine_grammar {ctx : RequestContext} {line rest : Bytes}
    (hstatus : ctx.response.statusCode = statusNone) (hbuffer : ctx.buffer = line ++ (crlf ++ rest))
    (hline : ¬ crlf <:+: line) (hlength : line.length ≤ requestLineLimit) :
    let ctx' := ctx.parseRequestLine.2
    ctx.parseRequestLine.1 = .reqDone ∧
      (ctx'.requestState.isReadRequestLineComplete = true ∧ ctx'.response.statusCode = statusNone ↔
        ∃ m target, RequestForm line m target protocolVersion11) ∧
      (∀ m target, RequestForm line m target protocolVersion11 →
        ctx'.method = m ∧ ctx'.target = target.takeWhile (· ≠ question) ∧
          ctx'.queries.queryLine = (if question ∈ target then (target.dropWhile (· ≠ question)).tail
            else ctx.queries.queryLine) ∧ ctx'.buffer = rest) ∧
      ((¬ ∃ m target, RequestForm line m target protocolVersion11) →
        ctx'.requestState.isReadComplete = true ∧
          (ctx'.response.statusCode = statusBadRequest ∨
            ctx'.response.statusCode = statusMethodNotAllowed ∨
            ctx'.response.statusCode = statusHttpVersionNotSupported)) ∧
      (ctx'.response.statusCode = statusMethodNotAllowed ↔ UnknownMethod line) ∧
      (ctx'.response.statusCode = statusHttpVersionNotSupported ↔
        ∃ m target version, RequestForm line m target version ∧ version ≠ [] ∧
          version ≠ protocolVersion11) := by
  rw [parseRequestLine_line hbuffer hline hlength]
  dsimp only
  have hcut := cut_parseMethod { ctx with buffer := rest } line
  generalize { ctx with buffer := rest }.parseMethod line = ctx' at hcut ⊢
  refine ⟨rfl, ?_⟩
  have h400 : statusBadRequest ≠ statusNone ∧ statusBadRequest ≠ statusMethodNotAllowed ∧
      statusBadRequest ≠ statusHttpVersionNotSupported := by decide
  have h405 : statusMethodNotAllowed ≠ statusNone ∧
      statusMethodNotAllowed ≠ statusHttpVersionNotSupported := by decide
  have h505 : statusHttpVersionNotSupported ≠ statusNone := by decide
  cases hcut with
  | @form m target version hform =>
    -- a form with the version of the protocol is this one
    have hsame : ∀ {m' target'}, RequestForm line m' target' protocolVersion11 →
        version = protocolVersion11 ∧ m = m' ∧ target = target' := by
      intro m' target' hform'
      obtain ⟨hm, htarget, hversion⟩ := hform.unique hform'
      exact ⟨hversion, hm, htarget⟩
    have hwith : ((({ ctx with buffer := rest } : RequestContext).withTarget m target).response).statusCode =
        statusNone := by
      rw [withTarget_response]
      exact hstatus
    rcases parseVersion_cases ({ ctx with buffer := rest }.withTarget m target) version with
      ⟨hversion, heq⟩ | ⟨hempty, hversion, heq⟩ | ⟨hversion, heq⟩ <;> rw [heq]
    · -- no version
      have hnone : ¬ ∃ m target, RequestForm line m target protocolVersion11 := by
        rintro ⟨m', target', hform'⟩
        exact absurd (hversion.symm.trans (hsame hform').1) (by decide)
      refine ⟨⟨fun haccepted => absurd haccepted.2 h400.1, fun h => absurd h hnone⟩,
        fun m' target' hform' => absurd ⟨m', target', hform'⟩ hnone, fun _ => ⟨rfl, Or.inl rfl⟩,
        ⟨fun h => absurd h h400.2.1, fun h => absurd h hform.not_unknown⟩,
        fun h => absurd h h400.2.2, ?_⟩
      rintro ⟨m', target', version', hform', hempty', -⟩
      exact absurd ((hform.unique hform').2.2.symm.trans hversion) hempty'
    · -- another version
      have hnone : ¬ ∃ m target, RequestForm line m target protocolVersion11 := by
        rintro ⟨m', target', hform'⟩
        exact hversion (hsame hform').1
      exact ⟨⟨fun haccepted => absurd haccepted.2 h505, fun h => absurd h hnone⟩,
        fun m' target' hform' => absurd ⟨m', target', hform'⟩ hnone, fun _ => ⟨rfl, Or.inr (Or.inr rfl)⟩,
        ⟨fun h => absurd h.symm h405.2, fun h => absurd h hform.not_unknown⟩,
        fun _ => ⟨m, target, version, hform, hempty, hversion⟩, fun _ => rfl⟩
    · -- the version of the protocol
      subst hversion
      have hparts := splitQuery_eq ({ ctx with buffer := rest, method := m }) target
      refine ⟨⟨fun _ => ⟨m, target, hform⟩, fun _ => ⟨rfl, hwith⟩⟩, ?_,
        fun h => absurd ⟨m, target, hform⟩ h, ⟨fun h => ?_, fun h => absurd h hform.not_unknown⟩,
        fun h => ?_, ?_⟩
      · intro m' target' hform'
        obtain ⟨-, rfl, rfl⟩ := hsame hform'
        exact ⟨withTarget_method .., hparts.1, hparts.2, withTarget_buffer ..⟩
      · exact absurd (hwith.symm.trans h) (by decide)
      · exact absurd (hwith.symm.trans h) (by decide)
      · rintro ⟨m', target', version', hform', -, hversion'⟩
        exact absurd (hform.unique hform').2.2.symm hversion'
  | unknown hunknown =>
    have hform : ∀ m target version, ¬ RequestForm line m target version := fun m target version hform =>
      hform.not_unknown hunknown
    exact ⟨⟨fun haccepted => absurd haccepted.2 h405.1,
        fun ⟨m, target, h⟩ => absurd h (hform m target _)⟩,
      fun m target h => absurd h (hform m target _), fun _ => ⟨rfl, Or.inr (Or.inl rfl)⟩,
      ⟨fun _ => hunknown, fun _ => rfl⟩, fun h => absurd h h405.2,
      fun ⟨m, target, version, h, _⟩ => absurd h (hform m target version)⟩
  | malformed hform hunknown method target =>
    exact ⟨⟨fun haccepted => absurd haccepted.2 h400.1,
        fun ⟨m, target, h⟩ => absurd h (hform m target _)⟩,
      fun m target h => absurd h (hform m target _), fun _ => ⟨rfl, Or.inl rfl⟩,
      ⟨fun h => absurd h h400.2.1, fun h => absurd h hunknown⟩, fun h => absurd h h400.2.2,
      fun ⟨m, target, version, h, _⟩ => absurd h (hform m target version)⟩

/-- A context of a fresh client with unread bytes. -/
def lineContext (buffer : Bytes) : RequestContext where
  server := Server.single 3 {} fun _ => 0
  buffer := buffer
  world := { fs := { table := fun _ => none } }

set_option maxRecDepth 10000 in
/-- A target with a query. -/
theorem requestLine_grammar_query :
    ∃ m target, RequestForm (bytes "GET /a?b HTTP/1.1") m target protocolVersion11 ∧
      (lineContext (bytes "GET /a?b HTTP/1.1\r\nH")).parseRequestLine.2.target = bytes "/a" ∧
      (lineContext (bytes "GET /a?b HTTP/1.1\r\nH")).parseRequestLine.2.buffer = bytes "H" := by
  have hform : RequestForm (bytes "GET /a?b HTTP/1.1") .get (bytes "/a?b") protocolVersion11 :=
    ⟨⟨bytes "GET", by decide, by decide⟩, by decide, by decide⟩
  obtain ⟨-, -, hparts, -⟩ := @requestLine_grammar (lineContext (bytes "GET /a?b HTTP/1.1\r\nH"))
    (bytes "GET /a?b HTTP/1.1") (bytes "H") rfl (by decide) (by decide) (by decide)
  obtain ⟨-, htarget, -, hbuffer⟩ := hparts _ _ hform
  exact ⟨.get, bytes "/a?b", hform, htarget.trans (by decide), hbuffer⟩

/-! ## The limit -/

/-- The parser never looks at the rest of the buffer. -/
theorem parseMethod_buffer (ctx : RequestContext) (line : Bytes) :
    (ctx.parseMethod line).buffer = ctx.buffer := by
  have hcut := cut_parseMethod ctx line
  generalize ctx.parseMethod line = ctx' at hcut ⊢
  cases hcut with
  | @form m target version _ =>
    have hwith := withTarget_buffer ctx m target
    rcases parseVersion_cases (ctx.withTarget m target) version with ⟨-, heq⟩ | ⟨-, -, heq⟩ | ⟨-, heq⟩ <;>
      · rw [heq]
        exact hwith
  | unknown => rfl
  | malformed => rfl

/-- The line is refused for its length: with 400, and nothing of it is consumed. -/
def LineTooLong (ctx : RequestContext) : Prop :=
  ctx.parseRequestLine = (.reqDone, ctx.refuse statusBadRequest)

/-- `_parseRequestLine` is called after each read, and refuses one of the calls for the length. -/
inductive RefusedForLength : RequestContext → List Bytes → Prop where
  | now {ctx : RequestContext} {read : Bytes} {reads : List Bytes} (h : LineTooLong (ctx.more read)) :
      RefusedForLength ctx (read :: reads)
  | later {ctx ctx' : RequestContext} {read : Bytes} {reads : List Bytes}
      (h : (ctx.more read).parseRequestLine = (.reqContinue, ctx')) (hlater : RefusedForLength ctx' reads) :
      RefusedForLength ctx (read :: reads)

/-- One call: which of the two tests strikes. -/
theorem lineTooLong_iff (ctx : RequestContext) :
    LineTooLong ctx ↔ match findSub crlf ctx.buffer with
      | none => requestLineLimit < ctx.buffer.length
      | some pos => requestLineLimit < pos := by
  unfold LineTooLong
  rw [parseRequestLine, find_crlf]
  cases hfind : findSub crlf ctx.buffer with
  | none =>
    dsimp only
    by_cases hlong : ctx.buffer.length > requestLineLimit
    · rw [if_pos hlong]
      exact iff_of_true rfl hlong
    · rw [if_neg hlong]
      exact iff_of_false (fun h => by cases h) hlong
  | some pos =>
    dsimp only
    by_cases hlong : pos > requestLineLimit
    · rw [if_pos hlong]
      exact iff_of_true rfl hlong
    · rw [if_neg hlong]
      refine iff_of_false (fun h => ?_) hlong
      -- the line was consumed
      have hbuffer := congrArg (fun r : Ret × RequestContext => r.2.buffer.length) h
      dsimp only at hbuffer
      rw [parseMethod_buffer, BinaryBuffer.erase_zero] at hbuffer
      have hin : pos + 2 ≤ ctx.buffer.length := Search.add_le_of_findSub hfind
      have hlength : (ctx.buffer.drop (pos + 2)).length = ctx.buffer.length := hbuffer
      rw [List.length_drop] at hlength
      omega

/-- A call that is not refused for the length waits as it is, or the line is there. -/
theorem parseRequestLine_of_none {ctx : RequestContext} (hfind : findSub crlf ctx.buffer = none)
    (hshort : ¬ LineTooLong ctx) : ctx.parseRequestLine = (.reqContinue, ctx) := by
  have hlimit : ¬ ctx.buffer.length > requestLineLimit := by
    rw [lineTooLong_iff, hfind] at hshort
    exact hshort
  rw [parseRequestLine, find_crlf, hfind]
  exact if_neg hlimit

theorem parseRequestLine_of_some {ctx : RequestContext} {pos : Nat}
    (hfind : findSub crlf ctx.buffer = some pos) :
    ctx.parseRequestLine.1 = .reqDone := by
  rw [parseRequestLine, find_crlf, hfind]
  dsimp only
  split_ifs <;> rfl

theorem refusedForLength_cons {ctx : RequestContext} {read : Bytes} {reads : List Bytes} :
    RefusedForLength ctx (read :: reads) ↔ LineTooLong (ctx.more read) ∨
      ∃ ctx', (ctx.more read).parseRequestLine = (.reqContinue, ctx') ∧ RefusedForLength ctx' reads := by
  constructor
  · intro h
    cases h with
    | now h => exact Or.inl h
    | later h hlater => exact Or.inr ⟨_, h, hlater⟩
  · rintro (h | ⟨ctx', h, hlater⟩)
    · exact .now h
    · exact .later h hlater

/-- What a read can leave in the buffer: the first line end is after the limit, or it is at the limit and
a read ends between its two bytes. -/
theorem refusedForLength_iff {ctx : RequestContext} {reads : List Bytes} {pos : Nat}
    (hnone : findSub crlf ctx.buffer = none) (hshort : ctx.buffer.length ≤ requestLineLimit)
    (hpos : findSub crlf (ctx.buffer ++ reads.flatten) = some pos) :
    RefusedForLength ctx reads ↔ requestLineLimit < pos ∨
      pos = requestLineLimit ∧ ∃ before after, reads = before ++ after ∧
        (ctx.buffer ++ before.flatten).length = requestLineLimit + 1 := by
  induction reads generalizing ctx with
  | nil =>
    rw [List.flatten_nil, List.append_nil, hnone] at hpos
    cases hpos
  | cons read reads ih =>
    rw [List.flatten_cons, ← List.append_assoc] at hpos
    -- a cut of the stream lies behind the first read
    have hcut : (∃ before after, read :: reads = before ++ after ∧
        (ctx.buffer ++ before.flatten).length = requestLineLimit + 1) ↔
        ∃ before after, reads = before ++ after ∧
          ((ctx.more read).buffer ++ before.flatten).length = requestLineLimit + 1 := by
      constructor
      · rintro ⟨before, after, heq, hlength⟩
        cases before with
        | nil =>
          simp only [List.flatten_nil, List.append_nil] at hlength
          omega
        | cons first before =>
          obtain ⟨rfl, rfl⟩ := List.cons.inj heq
          refine ⟨before, after, rfl, ?_⟩
          rw [more_buffer, List.append_assoc]
          exact hlength
      · rintro ⟨before, after, rfl, hlength⟩
        refine ⟨read :: before, after, rfl, ?_⟩
        rw [more_buffer, List.append_assoc] at hlength
        exact hlength
    rw [refusedForLength_cons, hcut]
    cases hfind : findSub crlf (ctx.more read).buffer with
    | some p =>
      -- the line is there
      have hp : p = pos := by
        have hmore := Search.findSub_append reads.flatten hfind
        rw [more_buffer, hpos] at hmore
        exact (Option.some.inj hmore).symm
      subst hp
      have hin : p + 2 ≤ (ctx.more read).buffer.length := Search.add_le_of_findSub hfind
      have hlong := lineTooLong_iff (ctx.more read)
      rw [hfind] at hlong
      rw [hlong]
      refine or_congr_right (iff_of_false ?_ ?_)
      · rintro ⟨ctx', heq, -⟩
        have hdone := parseRequestLine_of_some hfind
        rw [heq] at hdone
        cases hdone
      · rintro ⟨hlimit, before, after, -, hlength⟩
        rw [List.length_append] at hlength
        omega
    | none =>
      have hbefore := Search.lt_add_of_findSub_append hfind hpos
      have hbefore' : (ctx.more read).buffer.length < pos + 2 := hbefore
      by_cases hlong : LineTooLong (ctx.more read)
      · refine iff_of_true (Or.inl hlong) ?_
        have hlimit := (lineTooLong_iff _).mp hlong
        rw [hfind] at hlimit
        have hlimit' : requestLineLimit < (ctx.more read).buffer.length := hlimit
        rcases Nat.lt_or_ge requestLineLimit pos with hover | hat
        · exact Or.inl hover
        · refine Or.inr ⟨by omega, [], reads, rfl, ?_⟩
          rw [List.flatten_nil, List.append_nil]
          omega
      · have hlimit : ¬ requestLineLimit < (ctx.more read).buffer.length := by
          rw [lineTooLong_iff, hfind] at hlong
          exact hlong
        have hwait := parseRequestLine_of_none hfind hlong
        rw [or_iff_right hlong, ← ih hfind (by omega) hpos]
        constructor
        · rintro ⟨ctx', heq, hlater⟩
          rw [hwait] at heq
          cases heq
          exact hlater
        · exact fun h => ⟨_, hwait, h⟩

/-- A client that has read nothing yet.  Whether a call refuses depends on how much of the line is there,
and so on the split. -/
theorem refusedForLength_fresh {ctx : RequestContext} {reads : List Bytes} {pos : Nat}
    (hbuffer : ctx.buffer = [])
    (hpos : findSub crlf reads.flatten = some pos) :
    RefusedForLength ctx reads ↔ requestLineLimit < pos ∨
      pos = requestLineLimit ∧ ∃ before after, reads = before ++ after ∧
        before.flatten.length = requestLineLimit + 1 := by
  have hiff := @refusedForLength_iff ctx reads pos (by rw [hbuffer]; rfl)
    (by rw [hbuffer]; exact Nat.zero_le _) (by rw [hbuffer]; exact hpos)
  rw [hbuffer] at hiff
  simpa only [List.nil_append] using hiff

/-- **The limit on the request line.**  A stream is refused for its length exactly when its first line end
is after the limit, as long as it is not a line of exactly the limit whose CR ends a read. -/
theorem lengthLimit_iff {ctx : RequestContext} {reads : List Bytes} {pos : Nat} (hbuffer : ctx.buffer = [])
    (hpos : findSub crlf reads.flatten = some pos) :
    (RefusedForLength ctx reads ↔ requestLineLimit < pos) ↔
      ¬ (pos = requestLineLimit ∧ ∃ before after, reads = before ++ after ∧
        before.flatten.length = requestLineLimit + 1) := by
  rw [refusedForLength_fresh hbuffer hpos]
  constructor
  · rintro h ⟨rfl, hcut⟩
    exact absurd (h.mp (Or.inr ⟨rfl, hcut⟩)) (Nat.lt_irrefl _)
  · exact fun h => or_iff_left h

set_option maxRecDepth 10000 in
/-- A short line in two reads. -/
theorem lengthLimit_iff_short :
    (RefusedForLength (lineContext []) [bytes "GET / HTTP/1.1\r", bytes "\n"] ↔ requestLineLimit < 14) ↔
      ¬ (14 = requestLineLimit ∧ ∃ before after,
        [bytes "GET / HTTP/1.1\r", bytes "\n"] = before ++ after ∧
          before.flatten.length = requestLineLimit + 1) :=
  lengthLimit_iff rfl (by decide)

/-- A request line of 4096 bytes. -/
def fullLine : Bytes := bytes "GET /" ++ (List.replicate 4082 97 ++ bytes " HTTP/1.1")

/-- The reads end after the CR of a line of the limit. -/
theorem not_lengthLimit :
    findSub crlf [fullLine ++ [13], [10]].flatten = some requestLineLimit ∧
      (∃ m target, RequestForm fullLine m target protocolVersion11) ∧
      ¬ (RefusedForLength (lineContext []) [fullLine ++ [13], [10]] ↔ requestLineLimit < requestLineLimit) := by
  have hlength : fullLine.length = requestLineLimit := by
    rw [fullLine, List.length_append, List.length_append, List.length_replicate]
    rfl
  have hfind : findSub crlf [fullLine ++ [13], [10]].flatten = some requestLineLimit := by
    have hlf : (10 : Byte) ∉ fullLine := by
      rw [fullLine, List.mem_append, List.mem_append, List.mem_replicate]
      decide
    have hnone : ¬ crlf <:+: fullLine := fun h => hlf (h.subset (by decide))
    have hflat : [fullLine ++ [13], [10]].flatten = fullLine ++ (crlf ++ []) := by
      simp [crlf]
    rw [hflat, ← hlength]
    exact Search.findSub_append_pair (by decide) hnone []
  refine ⟨hfind, ⟨.get, slash :: List.replicate 4082 97, ⟨bytes "GET", by decide, ?_⟩, ?_, rfl⟩, fun h => ?_⟩
  · show fullLine = bytes "GET" ++ space :: (slash :: List.replicate 4082 97 ++ space :: protocolVersion11)
    rw [fullLine]
    rfl
  · rw [List.mem_cons, List.mem_replicate]
    decide
  · have hcut : [fullLine ++ [13]].flatten.length = requestLineLimit + 1 := by
      rw [List.flatten_singleton, List.length_append, hlength]
      rfl
    have hfresh : (lineContext []).buffer = [] := rfl
    have hrefused := (refusedForLength_fresh hfresh hfind).mpr
      (Or.inr ⟨rfl, [fullLine ++ [13]], [[10]], rfl, hcut⟩)
    exact absurd (h.mp hrefused) (Nat.lt_irrefl _)

end RequestContext
end Webserv
