import Webserv.Context

/-!
# The environment of a CGI

`CgiBuilder.cpp`: the variables that the child of `_openCGI` passes to `execve`.  Each request header gives
a variable with the prefix `HTTP_`; `Content-Type` and `Content-Length`, spelled so, give one more without
it.

* `CgiBuilder.envars`: the variables, in the order in which the builder appends them.
* `CgiBuilder.envp`: the same as C strings.
* `CgiBuilder.getenv`: what a CGI sees of a variable.
* `getenv_contentVariable`: the two variables without a prefix.

## Why the order is kept

An environment is a list, and a name may be in it twice.  Which of the two values a program sees depends on
its library; `getenv` takes the first, as the usual ones do.  So the model keeps the list as it is built,
and whether a name comes twice is a question that can be asked (in `CgiNames`).  Two spellings of one header
are two entries of the map, and both give the same variable.

## What a value may hold

The builder copies every variable with `strcpy`, which stops at a NUL.  A header value with a NUL in it
reaches the CGI cut short, and the statement about the two variables says so: it is `cstr` of the value that
arrives.
-/

namespace Webserv

/-- `Method::string`, of a valid method: its name in the table. -/
def Method.string (m : Method) : Bytes := ((methods.find? fun e => e.2 = m).map Prod.fst).getD []

/-- `toupper`, in the C locale. -/
def toupper (c : Byte) : Byte := if 97 ≤ c ∧ c ≤ 122 then c - 32 else c

namespace CgiBuilder

/-- `CgiBuilder::addEnvar`: a name, an equals sign and a value, none of them checked. -/
def envar (key val : Bytes) : Bytes := key ++ [61] ++ val

/-- The name of the variable of a header: `-` becomes `_`, and letters become capitals. -/
def headerVariable (name : Bytes) : Bytes := name.map fun c => toupper (if c = 45 then 95 else c)

/-- The variables of one header: two for the headers of the content, one for any other. -/
def headerEnvars (header : Bytes × Bytes) : List Bytes :=
  let var := headerVariable header.1
  (if header.1 = headerContentType ∨ header.1 = headerContentLength then [envar var header.2] else []) ++
    [envar (bytes "HTTP_" ++ var) header.2]

/-- `CgiBuilder::_addHeaders`: the variables of all headers, in the order of the map. -/
def addHeaders (headers : StringMap) : List Bytes := headers.entries.flatMap headerEnvars

/-- `CgiBuilder::_addContext`.  `clientIP` is what `inet_ntop` makes of the address. -/
def addContext (clientIP : Bytes) (ctx : RequestContext) : List Bytes :=
  [envar (bytes "REQUEST_METHOD") ctx.method.string] ++ addHeaders ctx.headers ++
    [envar (bytes "REMOTE_ADDR") clientIP, envar (bytes "REMOTE_HOST") clientIP,
      envar (bytes "QUERY_STRING") ctx.queries.queryLine, envar (bytes "REDIRECT_STATUS") [],
      envar (bytes "PATH_INFO") ctx.target,
      envar (bytes "REQUEST_URI") (ctx.target ++ ctx.queries.originalQueryLine)]

/-- `CgiBuilder::CgiBuilder(const ARequest *)`: what the request says, and four that say what the program
is. -/
def envars (clientIP : Bytes) (h : Handler) : List Bytes :=
  addContext clientIP h.context ++
    [envar (bytes "SCRIPT_FILENAME") h.request.path.notdir,
      envar (bytes "GATEWAY_INTERFACE") (bytes "CGI/1.1"),
      envar (bytes "SERVER_PROTOCOL") (bytes "HTTP/1.1"),
      envar (bytes "SERVER_SOFTWARE") (bytes "webserv/0.5")]

/-- `CgiBuilder::envp`: `strcpy` stops at a NUL. -/
def envp (clientIP : Bytes) (h : Handler) : List Bytes := (envars clientIP h).map cstr

/-- `getenv`, in the CGI: the first variable with that name. -/
def getenv (envp : List Bytes) (name : Bytes) : Option Bytes :=
  (envp.find? fun var => (name ++ [61]).isPrefixOf var).map (List.drop (name.length + 1))

/-! ## The variables without a prefix -/

/-- The headers that give a variable without a prefix, as the interface of CGI scripts names the type and
the length of a body. -/
inductive ContentHeader where
  | contentType | contentLength

namespace ContentHeader

def header : ContentHeader → Bytes
  | contentType => headerContentType
  | contentLength => headerContentLength

def envName : ContentHeader → Bytes
  | contentType => bytes "CONTENT_TYPE"
  | contentLength => bytes "CONTENT_LENGTH"

end ContentHeader

variable {x : ContentHeader} {var : Bytes} {vars : List Bytes}

/-- A variable is looked for in the first list, and then in the second. -/
theorem getenv_append (name : Bytes) (vars vars' : List Bytes) :
    getenv (vars ++ vars') name = (getenv vars name).or (getenv vars' name) := by
  rw [getenv, getenv, getenv, List.find?_append]
  cases vars.find? fun var => (name ++ [61]).isPrefixOf var <;> rfl

/-- A variable that does not start with the `C` of `CONTENT`. -/
def Other (var : Bytes) : Prop := ∃ c l, var = c :: l ∧ c ≠ 67 ∧ c ≠ 0

theorem getenv_of_other (h : Other var) : getenv [cstr var] x.envName = none := by
  obtain ⟨c, l, rfl, hc, hnul⟩ := h
  have hcstr : cstr (c :: l) = c :: cstr l := List.takeWhile_cons_of_pos (decide_eq_true hnul)
  have hprefix : (x.envName ++ [61]).isPrefixOf (c :: cstr l) = false := by
    cases x <;> exact Bool.and_eq_false_imp.mpr fun heq => absurd (beq_iff_eq.mp heq).symm hc
  rw [getenv, hcstr, List.find?_singleton, hprefix]
  rfl

theorem getenv_of_forall_other (h : ∀ var ∈ vars, Other var) :
    getenv (vars.map cstr) x.envName = none := by
  induction vars with
  | nil => rfl
  | cons var vars ih =>
    rw [List.map_cons, ← List.singleton_append, getenv_append, getenv_of_other (h var List.mem_cons_self),
      ih fun var hvar => h var (List.mem_cons_of_mem _ hvar)]
    rfl

/-- The variable of the header itself. -/
theorem getenv_headerVariable (x : ContentHeader) (val : Bytes) :
    getenv [cstr (envar (headerVariable x.header) val)] x.envName = some (cstr val) := by
  cases x <;> rfl

/-- The variables of one header: those of another one do not begin like it. -/
theorem getenv_headerEnvars (header : Bytes × Bytes) :
    getenv ((headerEnvars header).map cstr) x.envName =
      if x.header = header.1 then some (cstr header.2) else none := by
  obtain ⟨name, val⟩ := header
  have hprefixed : getenv [cstr (envar (bytes "HTTP_" ++ headerVariable name) val)] x.envName = none :=
    getenv_of_other ⟨_, _, rfl, by decide, by decide⟩
  unfold headerEnvars
  dsimp only
  rw [List.map_append, getenv_append, List.map_singleton, hprefixed, Option.or_none]
  by_cases hname : x.header = name
  · subst hname
    have hlisted : x.header = headerContentType ∨ x.header = headerContentLength := by
      cases x
      · exact Or.inl rfl
      · exact Or.inr rfl
    rw [if_pos hlisted, if_pos rfl]
    exact getenv_headerVariable x val
  · rw [if_neg hname]
    split_ifs with hlisted
    · -- the variable of the other header
      rcases hlisted with rfl | rfl <;> cases x <;> first | rfl | exact absurd rfl hname
    · rfl

/-- Of all headers, the one that is spelled so gives the variable. -/
theorem getenv_addHeaders (entries : List (Bytes × Bytes)) :
    getenv ((entries.flatMap headerEnvars).map cstr) x.envName =
      (OrderedMap.findEntry x.header entries).map cstr := by
  induction entries with
  | nil => rfl
  | cons header entries ih =>
    rw [List.flatMap_cons, List.map_append, getenv_append, getenv_headerEnvars, ih,
      OrderedMap.findEntry]
    by_cases hname : x.header = header.1
    · rw [if_pos hname, if_pos (by rw [hname]; exact Std.ReflCmp.compare_self)]
      rfl
    · rw [if_neg hname, if_neg fun heq => hname (Std.LawfulEqCmp.eq_of_compare heq)]
      rfl

/-- **The variables without a prefix.**  The CGI sees the value of the header that is spelled so, up to its
first NUL, and of no other header. -/
theorem getenv_contentVariable (clientIP : Bytes) (h : Handler) (x : ContentHeader) :
    getenv (envp clientIP h) x.envName = (h.context.headers.find? x.header).map cstr := by
  have hmethod : getenv ([envar (bytes "REQUEST_METHOD") h.context.method.string].map cstr) x.envName =
      none := getenv_of_other ⟨_, _, rfl, by decide, by decide⟩
  have hothers : ∀ ctx : RequestContext, ∀ var ∈ [envar (bytes "REMOTE_ADDR") clientIP,
      envar (bytes "REMOTE_HOST") clientIP, envar (bytes "QUERY_STRING") ctx.queries.queryLine,
      envar (bytes "REDIRECT_STATUS") [], envar (bytes "PATH_INFO") ctx.target,
      envar (bytes "REQUEST_URI") (ctx.target ++ ctx.queries.originalQueryLine)], Other var := by
    intro ctx
    simp only [List.forall_mem_cons, List.not_mem_nil, false_imp_iff, implies_true, and_true]
    refine ⟨?_, ?_, ?_, ?_, ?_, ?_⟩ <;> exact ⟨_, _, rfl, by decide, by decide⟩
  have hserver : ∀ request : ARequest, ∀ var ∈ [envar (bytes "SCRIPT_FILENAME") request.path.notdir,
      envar (bytes "GATEWAY_INTERFACE") (bytes "CGI/1.1"),
      envar (bytes "SERVER_PROTOCOL") (bytes "HTTP/1.1"),
      envar (bytes "SERVER_SOFTWARE") (bytes "webserv/0.5")], Other var := by
    intro request
    simp only [List.forall_mem_cons, List.not_mem_nil, false_imp_iff, implies_true, and_true]
    refine ⟨?_, ?_, ?_, ?_⟩ <;> exact ⟨_, _, rfl, by decide, by decide⟩
  rw [envp, envars, addContext, List.map_append, List.map_append, List.map_append, getenv_append,
    getenv_append, getenv_append, hmethod, getenv_of_forall_other (hothers _),
    getenv_of_forall_other (hserver _), addHeaders, getenv_addHeaders, Option.none_or, Option.or_none,
    Option.or_none]
  rfl

end CgiBuilder
end Webserv
