import Webserv.HeadAgreement
import Webserv.RequestLine
import Webserv.RoutePaths

/-!
# The redirect to a directory

GET and HEAD of a directory whose target has no slash at its end are answered with 301 and the target with
that slash, and the query behind it.  The client asks for it, and everything the server does with a target
treats the two alike: the request line is split at the same places, the location is found by components, and
the path is the same up to the slash.

* `movedOnlyIf_find`, `response_processing_cases`: when `processing` redirects.
* `localPath_concat`: the path of the longer target.
* `Sends`, `Accepts`: a request line on its way in, and what was read from it.
* `redirect_settles`: the second request is not redirected.

## Why a redirect could loop

The redirect is decided by the path, and the answer is made from the target.  Nothing connects the two but
the functions that lead from the one to the other, and each could break the connection: the splitting of the
line, if the redirection held a space or a `?` that the target did not hold; the choice of the location, if
the slash made another one the longest; the path, if the root swallowed the slash.  The lemmas go through
these one after the other.  What comes out of an accepted line has no space and no `?` in its target
(`separated_of_accepts`), so that it can be put into a line again.

## Why the second request ends

For the longer target the path is the first one with a slash at its end, and the directory test, the only
one that leads to 301, does not fail for such a path.  The decoding comes in between, which is why a target
with a `%` is left out.  The theorem leaves open what the second answer is: by then the directory may be
gone, or there may be no listing.
-/

namespace Webserv

open LexicalPath

/-! ## When `processing` redirects -/

/-- What was found leads to 301 in one case, and that case is there only under a condition. -/
def Found.MovedOnlyIf (condition : Prop) : Found → Prop
  | .refused status => status ≠ statusMovedPermanently
  | .moved => condition
  | .file _ | .directory _ => True

theorem movedOnlyIf_listing (condition : Prop) (rule : LocationBlock) (p : Path) :
    (Found.listing rule p).MovedOnlyIf condition := by
  unfold Found.listing
  by_cases hlisting : rule.isDirListing
  · rw [if_pos hlisting]
    trivial
  · rw [if_neg hlisting]
    exact (by decide : statusForbidden ≠ statusMovedPermanently)

theorem movedOnlyIf_validate {condition : Prop} {sys : Sys} {fs : FileSystem} {p : Path}
    {other : Path → Found} (hother : ∀ q, q.str = p.str → (other q).MovedOnlyIf condition) :
    (Found.validate sys fs p other).MovedOnlyIf condition := by
  unfold Found.validate
  cases hstat : p.stat sys fs with
  | none => exact (by decide : statusInternalServerError ≠ statusMovedPermanently)
  | some q =>
    dsimp only
    by_cases hread : ¬ q.access fs .read
    · rw [if_pos hread]
      exact (by decide : statusForbidden ≠ statusMovedPermanently)
    rw [if_neg hread]
    by_cases hfile : q.isFile
    · rw [if_pos hfile]
      trivial
    · rw [if_neg hfile]
      exact hother q (Path.stat_str hstat)

/-- The directory test fails only for a path without a slash at its end. -/
theorem movedOnlyIf_find (sys : Sys) (fs : FileSystem) (rule : LocationBlock) (p : Path) :
    (find sys fs rule p).MovedOnlyIf (¬ p.isDirFormat = true) := by
  unfold find
  by_cases hexists : ¬ p.access fs .exists
  · rw [if_pos hexists]
    exact (by decide : statusNotFound ≠ statusMovedPermanently)
  rw [if_neg hexists]
  refine movedOnlyIf_validate fun q hq => ?_
  by_cases hdir : ¬ q.isDir
  · rw [if_pos hdir]
    exact (by decide : statusConflict ≠ statusMovedPermanently)
  rw [if_neg hdir]
  by_cases hformat : ¬ q.isDirFormat
  · rw [if_pos hformat]
    exact fun h => hformat ((Path.isDirFormat_congr hq).trans h)
  rw [if_neg hformat]
  cases Handler.findIndex fs q rule.indexes with
  | none => exact movedOnlyIf_listing _ rule q
  | some test => exact movedOnlyIf_validate fun r _ => movedOnlyIf_listing _ rule r

namespace Handler

variable {sys : Sys} {h : Handler}

theorem statusCode_serveGET_ne (hfresh : h.context.response.statusCode = statusNone) :
    (serveGET sys h).context.response.statusCode ≠ statusMovedPermanently := by
  unfold serveGET
  cases h.request.cgiPath with
  | some cgi =>
    rcases openCGI_cases sys h with heq | ⟨pair, heq⟩ | ⟨pair, pid, heq⟩
    · rw [show openCGI sys h = _ from heq]
      exact (by decide : statusInternalServerError ≠ statusMovedPermanently)
    · rw [show openCGI sys h = _ from heq]
      exact (by decide : statusInternalServerError ≠ statusMovedPermanently)
    · rw [show openCGI sys h = _ from heq]
      show h.context.response.statusCode ≠ statusMovedPermanently
      rw [hfresh]
      decide
  | none =>
    show (openFileGET sys h).context.response.statusCode ≠ statusMovedPermanently
    unfold openFileGET
    dsimp only
    split_ifs
    · exact (by decide : statusOk ≠ statusMovedPermanently)
    · exact (by decide : statusInternalServerError ≠ statusMovedPermanently)

theorem statusCode_openDirGET_ne :
    (openDirGET sys h).context.response.statusCode ≠ statusMovedPermanently := by
  unfold openDirGET
  dsimp only
  split_ifs
  · exact (by decide : statusOk ≠ statusMovedPermanently)
  · exact (by decide : statusInternalServerError ≠ statusMovedPermanently)

/-- The response of a request that is redirected: 301, and the target with a slash behind it. -/
def redirected (h : Handler) : Response :=
  (h.context.response.setStatusCode statusMovedPermanently).setHeader headerLocation
    (h.context.target ++ [slash] ++ h.context.queries.originalQueryLine)

/-- GET and HEAD answer 301 only where the directory test fails. -/
theorem response_processing_cases (hkind : h.request.kind = .get ∨ h.request.kind = .head)
    (hfresh : h.context.response.statusCode = statusNone) (sys : Sys) :
    (¬ h.request.path.isDirFormat = true ∧ (processing sys h).context.response = h.redirected) ∨
      (processing sys h).context.response.statusCode ≠ statusMovedPermanently := by
  obtain ⟨serve, openDir, hresponse, hserve, hopen⟩ :
      ∃ serve openDir : Handler → Handler,
        (processing sys h).context.response =
          respond serve openDir h (find sys h.context.world.fs h.rule h.request.path) ∧
        (∀ p, (serve (h.setPath p)).context.response.statusCode ≠ statusMovedPermanently) ∧
        ∀ p, (openDir (h.setPath p)).context.response.statusCode ≠ statusMovedPermanently := by
    rcases hkind with hget | hhead
    · refine ⟨serveGET sys, openDirGET sys, ?_, fun p => statusCode_serveGET_ne hfresh,
        fun p => statusCode_openDirGET_ne⟩
      unfold processing
      rw [hget]
      exact response_processingGET sys h
    · refine ⟨openFileHEAD, openDirHEAD, ?_, fun p => (by decide : statusOk ≠ statusMovedPermanently),
        fun p => (by decide : statusOk ≠ statusMovedPermanently)⟩
      unfold processing
      rw [hhead]
      exact response_processingHEAD sys h
  have hfound := movedOnlyIf_find sys h.context.world.fs h.rule h.request.path
  rw [hresponse]
  generalize find sys h.context.world.fs h.rule h.request.path = found at hfound ⊢
  cases found with
  | moved => exact Or.inl ⟨hfound, rfl⟩
  | refused status => exact Or.inr hfound
  | file p => exact Or.inr (hserve p)
  | directory p => exact Or.inr (hopen p)

end Handler

/-! ## The path of the longer target -/

theorem squeeze_concat_of_head {s : Bytes} (hs : s.head? = some slash) (hlast : s.getLast? ≠ some slash) :
    squeeze (s ++ [slash]) = squeeze s ++ [slash] := by
  have hconcat : (s ++ [slash]).head? = some slash := by
    rw [List.head?_append, hs]
    rfl
  rw [squeeze_of_head hconcat, squeeze_of_head hs, if_neg hlast, if_pos List.getLast?_concat,
    components_concat_sep, List.append_nil]

/-- What is not empty goes behind the root as if the slash between them were its own. -/
theorem localPath_eq_append {loc : LocationBlock} (hroot : loc.ParsedRoot) {r v : Bytes}
    (hr : loc.root.str = r ++ [slash]) (hv : percent ∉ v) (hne : v ≠ []) :
    (localPath loc v).str = r ++ squeeze (slash :: v) := by
  rw [localPath_of_ne_nil hroot hv hne, hr, squeeze_slash_cons, List.tail_cons, List.append_assoc,
    List.singleton_append]

/-- A path that is not in directory form gets the slash that the target gets. -/
theorem localPath_concat {loc : LocationBlock} (hroot : loc.ParsedRoot) {v : Bytes} (hv : percent ∉ v)
    (hformat : ¬ (localPath loc v).isDirFormat = true) :
    (localPath loc (v ++ [slash])).str = (localPath loc v).str ++ [slash] := by
  obtain ⟨r, hr⟩ := hroot.dirPath.exists_eq
  have hv' : percent ∉ v ++ [slash] := by
    rw [List.mem_append, not_or]
    exact ⟨hv, by decide⟩
  have hlong := localPath_eq_append hroot hr hv' (by simp)
  by_cases hne : v = []
  · subst hne
    rw [hlong, localPath_eq hroot.dirPath hroot.noPercent, if_pos rfl, hr, List.dropLast_concat]
    rfl
  · have hshort := localPath_eq_append hroot hr hv hne
    have hlast : (slash :: v).getLast? ≠ some slash := fun hslash => by
      refine hformat ?_
      have hsqueezed : squeeze (slash :: v) ≠ [] := by
        rw [squeeze_slash_cons]
        exact List.cons_ne_nil _ _
      rw [Path.isDirFormat, hshort, List.getLast?_append_of_ne_nil _ hsqueezed, getLast?_squeeze, hslash]
      exact decide_eq_true rfl
    rw [hlong, hshort, ← List.cons_append, squeeze_concat_of_head (List.head?_cons ..) hlast,
      List.append_assoc]

/-! ## The location of the longer target -/

/-- A location is found by the components of the target, and the slash at the end adds none. -/
theorem findLocationBlock_concat (block : ServerBlock) (target : Bytes) :
    block.findLocationBlock (Path.ofString (target ++ [slash])) =
      block.findLocationBlock (Path.ofString target) := by
  have hloop : ∀ {p q : Path}, p.chunks = q.chunks → ∀ (locations : List LocationBlock)
      (selected : Option LocationBlock) (bestMatch : Nat),
        ServerBlock.findLocationLoop p locations selected bestMatch =
          ServerBlock.findLocationLoop q locations selected bestMatch := by
    intro p q hchunks locations
    induction locations with
    | nil => exact fun _ _ => rfl
    | cons loc locations ih =>
      intro selected bestMatch
      have hmatch : loc.isMatch p = loc.isMatch q := by
        unfold LocationBlock.isMatch Path.prefixMatch
        rw [hchunks]
      have hlength : p.length = q.length := congrArg List.length hchunks
      rw [ServerBlock.findLocationLoop, ServerBlock.findLocationLoop, hmatch, hlength]
      simp only [ih]
  refine hloop ?_ _ _ _
  rw [Path.ofString_chunks, Path.ofString_chunks, components_concat_sep]

/-! ## The request lines -/

namespace RequestContext

/-- A client that has sent a request line and nothing before it. -/
structure Sends (ctx : RequestContext) (line : Bytes) : Prop where
  buffer : ∃ rest, ctx.buffer = line ++ (crlf ++ rest)
  length : line.length ≤ requestLineLimit
  status : ctx.response.statusCode = statusNone
  query : ctx.queries.queryLine = []

/-- The request line was accepted, with this target and this query: what the parser leaves in the context
for the routing. -/
structure Accepts (ctx : RequestContext) (target query : Bytes) : Prop where
  complete : ctx.requestState.isReadRequestLineComplete = true
  status : ctx.response.statusCode = statusNone
  target : ctx.target = target
  query : ctx.queries.queryLine = query

end RequestContext

/-- A target and a query as they come out of a request line. -/
structure Separated (target query : Bytes) : Prop where
  slash : target.head? = some slash
  question : question ∉ target
  space : space ∉ target ∧ space ∉ query
  crlf : ¬ crlf <:+: target ∧ ¬ crlf <:+: query

/-- The target with the slash, and the query behind it: the value of `Location`. -/
def redirection (target query : Bytes) : Bytes :=
  target ++ [slash] ++ if query = [] then [] else question :: query

namespace RequestContext

variable {ctx : RequestContext} {line target query : Bytes}

/-- What comes out of a line that was accepted. -/
theorem separated_of_accepts (hsends : ctx.Sends line) (hline : ¬ crlf <:+: line)
    (haccepts : ctx.parseRequestLine.2.Accepts target query) : Separated target query := by
  obtain ⟨rest, hbuffer⟩ := hsends.buffer
  obtain ⟨-, haccepted, hparts, -⟩ := requestLine_grammar hsends.status hbuffer hline hsends.length
  obtain ⟨m, whole, hform⟩ := haccepted.mp ⟨haccepts.complete, haccepts.status⟩
  obtain ⟨-, htarget, hquery, -⟩ := hparts m whole hform
  rw [haccepts.target] at htarget
  rw [haccepts.query, hsends.query] at hquery
  obtain ⟨name, -, hcut⟩ := hform.name
  have hwhole : whole <:+: line := by
    rw [hcut]
    exact ⟨name ++ [space], space :: protocolVersion11, by simp⟩
  have htargetWhole : target <:+: whole := by
    rw [htarget]
    exact (List.takeWhile_prefix _).isInfix
  have hqueryWhole : query <:+: whole := by
    rw [hquery]
    by_cases hquestion : question ∈ whole
    · rw [if_pos hquestion]
      exact ((List.tail_suffix _).trans (List.dropWhile_suffix _)).isInfix
    · rw [if_neg hquestion]
      exact List.nil_infix
  refine ⟨?_, ?_, ⟨fun h => hform.no_space (htargetWhole.subset h),
    fun h => hform.no_space (hqueryWhole.subset h)⟩, fun h => hline ((h.trans htargetWhole).trans hwhole),
    fun h => hline ((h.trans hqueryWhole).trans hwhole)⟩
  · obtain ⟨t, rfl⟩ := List.head?_eq_some_iff.mp hform.slash
    rw [htarget, List.takeWhile_cons_of_pos (by decide)]
    rfl
  · rw [htarget]
    intro h
    have hne := List.mem_takeWhile_imp h
    exact absurd hne (by decide)

theorem head?_redirection (h : Separated target query) : (redirection target query).head? = some slash := by
  obtain ⟨t, rfl⟩ := List.head?_eq_some_iff.mp h.slash
  rfl

theorem space_notMem_redirection (h : Separated target query) : space ∉ redirection target query := by
  unfold redirection
  rw [List.mem_append, List.mem_append, not_or, not_or]
  refine ⟨⟨h.space.1, by decide⟩, ?_⟩
  by_cases hnil : query = []
  · rw [if_pos hnil]
    exact List.not_mem_nil
  · rw [if_neg hnil, List.mem_cons, not_or]
    exact ⟨by decide, h.space.2⟩

theorem no_crlf_redirection (h : Separated target query) : ¬ crlf <:+: redirection target query := by
  intro hin
  unfold redirection at hin
  rw [List.append_assoc, List.singleton_append] at hin
  rcases Search.infix_of_append_cons (by decide) (by decide) hin with htarget | htail
  · exact h.crlf.1 htarget
  by_cases hnil : query = []
  · rw [if_pos hnil] at htail
    exact absurd htail (by decide)
  · rw [if_neg hnil] at htail
    rcases Search.infix_of_append_cons (by decide) (by decide) (l := []) htail with hleft | hquery
    · exact absurd hleft (by decide)
    · exact h.crlf.2 hquery

/-- The scan for `?` passes the target and its slash, and stops where it stopped before. -/
theorem passes_redirection (h : Separated target query) :
    ∀ c ∈ target ++ [slash], decide (c ≠ question) = true := by
  refine fun c hc => decide_eq_true fun heq => ?_
  rw [heq, List.mem_append] at hc
  exact hc.elim h.question (by decide)

theorem takeWhile_redirection (h : Separated target query) :
    (redirection target query).takeWhile (· ≠ question) = target ++ [slash] := by
  unfold redirection
  rw [List.takeWhile_append_of_pos (passes_redirection h)]
  by_cases hnil : query = []
  · rw [if_pos hnil, List.takeWhile_nil, List.append_nil]
  · rw [if_neg hnil, List.takeWhile_cons_of_neg (by decide), List.append_nil]

theorem query_redirection (h : Separated target query) :
    (if question ∈ redirection target query then ((redirection target query).dropWhile (· ≠ question)).tail
      else []) = query := by
  unfold redirection
  rw [List.dropWhile_append_of_pos (passes_redirection h)]
  by_cases hnil : query = []
  · rw [if_pos hnil, List.append_nil, hnil]
    exact ite_self _
  · rw [if_neg hnil, if_pos (List.mem_append_right _ List.mem_cons_self),
      List.dropWhile_cons_of_neg (by decide)]
    rfl

/-- The redirection is a target.  A client that follows it sends a request line that is accepted like the
first. -/
theorem accepts_redirection (hseparated : Separated target query) {name : Bytes} {m : Method}
    (hname : (name, m) ∈ Method.methods)
    (hsends : ctx.Sends (name ++ space :: (redirection target query ++ space :: protocolVersion11))) :
    ctx.parseRequestLine.2.Accepts (target ++ [slash]) query := by
  obtain ⟨rest, hbuffer⟩ := hsends.buffer
  have hform : RequestForm (name ++ space :: (redirection target query ++ space :: protocolVersion11)) m
      (redirection target query) protocolVersion11 :=
    ⟨⟨name, hname, rfl⟩, space_notMem_redirection hseparated, head?_redirection hseparated⟩
  have hline : ¬ crlf <:+: name ++ space :: (redirection target query ++ space :: protocolVersion11) := by
    have hnames : ∀ p ∈ Method.methods, ¬ crlf <:+: p.1 := by decide
    intro h
    rcases Search.infix_of_append_cons (by decide) (by decide) h with hname' | h
    · exact hnames _ hname hname'
    rcases Search.infix_of_append_cons (by decide) (by decide) h with h | hversion
    · exact no_crlf_redirection hseparated h
    · exact absurd hversion (by decide)
  obtain ⟨-, haccepted, hparts, -⟩ := requestLine_grammar hsends.status hbuffer hline hsends.length
  obtain ⟨-, htarget, hquery, -⟩ := hparts m _ hform
  obtain ⟨hcomplete, hstatus⟩ := haccepted.mpr ⟨m, _, hform⟩
  rw [hsends.query] at hquery
  exact ⟨hcomplete, hstatus, htarget.trans (takeWhile_redirection hseparated),
    hquery.trans (query_redirection hseparated)⟩

end RequestContext

/-! ## The two requests -/

/-- A request object for a target and a query, in the location that the block has for the target. -/
structure ServerBlock.Creates (block : ServerBlock) (loc : LocationBlock) (kind : RequestKind)
    (target query : Bytes) (h : Handler) : Prop where
  found : block.findLocationBlock (Path.ofString target) = some loc
  created : ∃ ctx : RequestContext, ctx.ruleBlock = some loc ∧ ctx.target = target ∧
    ctx.queries.queryLine = query ∧ ctx.response.statusCode = statusNone ∧
    createRequest kind ctx = .ok h

/-- What the object starts with.  The path is the one of the constructor, from which `processing` sets out. -/
theorem ServerBlock.Creates.fields {block : ServerBlock} {loc : LocationBlock} {kind : RequestKind}
    {target query : Bytes} {h : Handler} (hloc : loc.Parsed) (htarget : target.head? = some slash)
    (hcreates : block.Creates loc kind target query h) :
    loc.matchLength ≤ target.length ∧
      (localPath loc (target.drop loc.matchLength)).str = h.request.path.str ∧ h.request.kind = kind ∧
      h.context.response.statusCode = statusNone ∧ h.context.target = target ∧
      h.context.queries.queryLine = query := by
  obtain ⟨ctx, hrule, rfl, rfl, hstatus, hcreate⟩ := hcreates.created
  have hle := (chopTarget_found hloc htarget hcreates.found).2.1
  obtain ⟨h', hcreate', hpath⟩ := createRequest_eq kind hrule hle
  obtain rfl := Except.ok.inj (hcreate'.symm.trans hcreate)
  obtain ⟨chopedTarget, -, rfl⟩ := createRequest_ok hcreate
  exact ⟨hle, congrArg Path.str hpath.symm, rfl, hstatus, rfl, rfl⟩

/-- **Directory redirects do not loop.**  Let a client have sent a request line, and GET or HEAD have
answered it with 301 and a `Location`.  A request line with that location, if it is not too long, is
accepted with the same query and the target with a slash; the location block is the same; every request
object for it has the same path with a slash, and none is answered with 301. -/
theorem redirect_settles {block : ServerBlock} {loc : LocationBlock} (hloc : loc.Parsed)
    (hroot : loc.ParsedRoot) {ctx : RequestContext} {line target query : Bytes} (hsends : ctx.Sends line)
    (hline : ¬ crlf <:+: line) (haccepts : ctx.parseRequestLine.2.Accepts target query)
    (hpercent : percent ∉ target) {kind : RequestKind} (hkind : kind = .get ∨ kind = .head) {h : Handler}
    (hcreates : block.Creates loc kind target query h) {sys : Sys} {l : Bytes}
    (hmoved : (h.processing sys).context.response.statusCode = statusMovedPermanently)
    (hlocation : (h.processing sys).context.response.headers.find? headerLocation = some l) :
    (∀ (ctx' : RequestContext) (name : Bytes) (m : Method), (name, m) ∈ Method.methods →
        ctx'.Sends (name ++ space :: (l ++ space :: RequestContext.protocolVersion11)) →
          ctx'.parseRequestLine.2.Accepts (target ++ [slash]) query) ∧
      block.findLocationBlock (Path.ofString (target ++ [slash])) = some loc ∧
      (∀ (kind' : RequestKind) (ctx' : RequestContext), ctx'.ruleBlock = some loc →
        ctx'.target = target ++ [slash] → ∃ h', createRequest kind' ctx' = .ok h') ∧
      ∀ (kind' : RequestKind) (h' : Handler), kind' = .get ∨ kind' = .head →
        block.Creates loc kind' (target ++ [slash]) query h' →
          h'.request.path.str = h.request.path.str ++ [slash] ∧
            ∀ sys', (h'.processing sys').context.response.statusCode ≠ statusMovedPermanently := by
  have hseparated := RequestContext.separated_of_accepts hsends hline haccepts
  obtain ⟨hle, hpath, hkind', hfresh, htarget, hquery⟩ := hcreates.fields hloc hseparated.slash
  have hslash : (target ++ [slash]).head? = some slash := by
    rw [List.head?_append, hseparated.slash]
    rfl
  have hfound : block.findLocationBlock (Path.ofString (target ++ [slash])) = some loc := by
    rw [findLocationBlock_concat]
    exact hcreates.found
  -- the redirect comes from the directory test
  obtain ⟨hformat, hresponse⟩ :=
    (Handler.response_processing_cases (hkind'.symm ▸ hkind) hfresh sys).resolve_right (not_not.mpr hmoved)
  have hl : l = redirection target query := by
    rw [hresponse, Handler.redirected, Response.setHeader_headers, OrderedMap.find?_insert_self, htarget,
      Queries.originalQueryLine, hquery] at hlocation
    exact (Option.some.inj hlocation).symm
  have hdrop : (target ++ [slash]).drop loc.matchLength = target.drop loc.matchLength ++ [slash] :=
    List.drop_append_of_le_length hle
  have hrest : percent ∉ target.drop loc.matchLength := fun hmem => hpercent (List.mem_of_mem_drop hmem)
  have hlong : (localPath loc ((target ++ [slash]).drop loc.matchLength)).str =
      h.request.path.str ++ [slash] := by
    rw [hdrop, localPath_concat hroot hrest, hpath]
    rwa [Path.isDirFormat_congr hpath]
  refine ⟨fun ctx' name m hname hsends' => ?_, hfound, fun kind' ctx' hrule htarget' => ?_,
    fun kind' h' hkind'' hcreates' => ?_⟩
  · rw [hl] at hsends'
    exact RequestContext.accepts_redirection hseparated hname hsends'
  · exact (chopTarget_found hloc hslash hfound).2.2.2 kind' ctx' hrule htarget'
  · obtain ⟨-, hpath', hkind', hfresh', -⟩ := hcreates'.fields hloc hslash
    have hstr : h'.request.path.str = h.request.path.str ++ [slash] := hpath'.symm.trans hlong
    refine ⟨hstr, fun sys' => ?_⟩
    refine (Handler.response_processing_cases (hkind'.symm ▸ hkind'') hfresh' sys').resolve_left ?_
    rintro ⟨hformat', -⟩
    refine hformat' ?_
    rw [Path.isDirFormat, hstr, List.getLast?_concat]
    exact decide_eq_true rfl

/-- The directory of a location, and a client that asks for it without its slash. -/
def albumContext : RequestContext where
  server := Server.single 3 {} fun _ => 0
  ruleBlock := some photoLocation
  target := bytes "/a"
  queries := Queries.ofString (bytes "b")
  world := { fs := { table := fun path => if path = bytes "/r" then some { kind := .directory [] } else none } }

theorem sends_album : (RequestContext.lineContext (bytes "GET /a?b HTTP/1.1\r\n")).Sends
    (bytes "GET /a?b HTTP/1.1") :=
  ⟨⟨[], by decide⟩, by decide, rfl, rfl⟩

set_option maxRecDepth 10000 in
theorem accepts_album :
    (RequestContext.lineContext (bytes "GET /a?b HTTP/1.1\r\n")).parseRequestLine.2.Accepts (bytes "/a")
      (bytes "b") :=
  ⟨by decide, by decide, by decide, by decide⟩

/-- `GET /a?b`, where `/a/` is a location: the path is the root without its last slash. -/
theorem redirect_settles_album :
    let block : ServerBlock := { locations := [photoLocation] }
    ∃ h, createRequest .get albumContext = .ok h ∧
      block.findLocationBlock (Path.ofString (bytes "/a" ++ [slash])) = some photoLocation ∧
      ∀ h', block.Creates photoLocation .head (bytes "/a" ++ [slash]) (bytes "b") h' →
        h'.request.path.str = h.request.path.str ++ [slash] ∧
          ∀ sys', (h'.processing sys').context.response.statusCode ≠ statusMovedPermanently := by
  intro block
  refine ⟨_, rfl, ?_⟩
  obtain ⟨-, hfound, -, hpath⟩ := @redirect_settles block photoLocation parsed_photoLocation
    parsedRoot_photoLocation _ _ _ _ sends_album (by decide) accepts_album (by decide) .get (Or.inl rfl) _
    ⟨rfl, albumContext, rfl, rfl, rfl, rfl, rfl⟩ (Sys.quiet 0) (bytes "/a/?b") (by decide +kernel)
    (by decide +kernel)
  exact ⟨hfound, fun h' hcreates => hpath .head h' (Or.inr rfl) hcreates⟩

end Webserv
