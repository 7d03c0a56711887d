import Mathlib.Data.List.Nodup
import Webserv.CgiBuilder

/-!
# The names in the environment of a CGI

The name of a variable is what stands before its first `=`.  A header gives the name `HTTP_` and its own
name in capitals with `_` for `-`, up to an `=` or a NUL in it; different headers may give the same one.
The names that the server gives do not start with `HTTP_`.

* `variableName`, `variableNames`: the names of the environment.
* `headerName`: what a header name becomes.
* `variableNames_eq`: the environment, name by name.
* `nodup_variableNames_iff`: when no name is there twice.

## Why names can meet

The map of the headers has every name once, spelled as the client spelled it.  The environment forgets three
things about the spelling: the case of letters, whether there was a `-` or a `_`, and whatever comes after
an `=` or a NUL, since the first ends the name of a variable and the second the whole string.  Two headers
meet when they differ in nothing else.  A CGI that looks such a name up gets one of the values, and the
order of the names in the map decides which.

## Why the server's own names are safe

The variables of the server are a fixed list without repetitions, one in front of those of the headers and
the others behind.  None of them starts with `HTTP_`, and none is `CONTENT_TYPE` or `CONTENT_LENGTH`.  A
header gives a name with the prefix, and two headers give one of these names besides, each its own.  So a
repetition can only be one among the headers, and the condition is about their names alone: nothing depends
on the values, the request or the handler.
-/

namespace Webserv
namespace CgiBuilder

/-- The part before the first `=`: the name of a variable, as `getenv` compares it. -/
def variableName (var : Bytes) : Bytes := var.takeWhile (· ≠ 61)

/-- The names that the CGI finds, each as often as it is there. -/
def variableNames (clientIP : Bytes) (h : Handler) : List Bytes := (envp clientIP h).map variableName

/-- What is left of the name of a header: `=` ends the name of the variable, NUL the variable. -/
def headerName (name : Bytes) : Bytes := (headerVariable name).takeWhile fun c => c ≠ 0 ∧ c ≠ 61

/-- The name of a variable is its key, up to an `=` or a NUL. -/
theorem variableName_envar (key val : Bytes) :
    variableName (cstr (envar key val)) = key.takeWhile fun c => c ≠ 0 ∧ c ≠ 61 := by
  induction key with
  | nil => rfl
  | cons c key ih =>
    have henvar : envar (c :: key) val = c :: envar key val := rfl
    rw [henvar]
    by_cases hnul : c = 0
    · subst hnul
      rfl
    · have hcstr : cstr (c :: envar key val) = c :: cstr (envar key val) :=
        List.takeWhile_cons_of_pos (decide_eq_true hnul)
      by_cases hequals : c = 61
      · subst hequals
        rw [hcstr]
        rfl
      · have hname : variableName (c :: cstr (envar key val)) = c :: variableName (cstr (envar key val)) :=
          List.takeWhile_cons_of_pos (decide_eq_true hequals)
        rw [hcstr, hname, ih, List.takeWhile_cons]
        exact (if_pos (decide_eq_true (And.intro hnul hequals))).symm

/-! ## The names of the headers -/

/-- The names that one header gives: with the prefix `HTTP_`, and for two headers without it as well. -/
def headerNames (name : Bytes) : List Bytes :=
  (if name = headerContentType ∨ name = headerContentLength then [headerName name] else []) ++
    [bytes "HTTP_" ++ headerName name]

theorem variableName_headerEnvars (header : Bytes × Bytes) :
    ((headerEnvars header).map cstr).map variableName = headerNames header.1 := by
  have hprefixed : variableName (cstr (envar (bytes "HTTP_" ++ headerVariable header.1) header.2)) =
      bytes "HTTP_" ++ headerName header.1 := by
    rw [variableName_envar, List.takeWhile_append_of_pos (by decide +kernel), headerName]
  unfold headerEnvars headerNames
  dsimp only
  rw [List.map_append, List.map_append, List.map_singleton, List.map_singleton, hprefixed]
  split_ifs
  · rw [List.map_singleton, List.map_singleton, variableName_envar, headerName]
  · rfl

/-- A name that comes from a header. -/
theorem mem_headerNames {name n : Bytes} (h : n ∈ headerNames name) :
    n = bytes "HTTP_" ++ headerName name ∨
      (name = headerContentType ∨ name = headerContentLength) ∧ n = headerName name := by
  unfold headerNames at h
  rcases List.mem_append.mp h with h | h
  · split_ifs at h with hcontent
    · exact Or.inr ⟨hcontent, List.mem_singleton.mp h⟩
    · cases h
  · exact Or.inl (List.mem_singleton.mp h)

/-- The names without the prefix do not have it. -/
theorem headerName_ne_prefixed {name : Bytes} (h : name = headerContentType ∨ name = headerContentLength)
    (n : Bytes) : headerName name ≠ bytes "HTTP_" ++ n := by
  intro heq
  have hhead : (headerName name).head? = some 72 := congrArg List.head? heq
  rcases h with rfl | rfl <;> exact absurd hhead (by decide)

theorem nodup_headerNames (name : Bytes) : (headerNames name).Nodup := by
  unfold headerNames
  split_ifs with hcontent
  · exact List.nodup_cons.mpr
      ⟨fun hmem => headerName_ne_prefixed hcontent _ (List.mem_singleton.mp hmem), List.nodup_singleton _⟩
  · exact List.nodup_singleton _

/-- Two headers share a name when theirs become the same. -/
theorem disjoint_headerNames_iff {name name' : Bytes} :
    List.Disjoint (headerNames name) (headerNames name') ↔ headerName name ≠ headerName name' := by
  constructor
  · intro hdisjoint heq
    refine hdisjoint (a := bytes "HTTP_" ++ headerName name) (List.mem_append_right _ ?_)
      (List.mem_append_right _ ?_)
    · exact List.mem_singleton.mpr rfl
    · rw [heq]
      exact List.mem_singleton.mpr rfl
  · intro hnames n hn hn'
    rcases mem_headerNames hn with rfl | ⟨hcontent, rfl⟩
    · rcases mem_headerNames hn' with heq | ⟨hcontent', heq⟩
      · exact hnames (List.append_cancel_left heq)
      · exact headerName_ne_prefixed hcontent' _ heq.symm
    · rcases mem_headerNames hn' with heq | ⟨-, heq⟩
      · exact headerName_ne_prefixed hcontent _ heq
      · exact hnames heq

/-- The names of all headers differ exactly if the headers differ after the conversion to a variable name,
which is not injective. -/
theorem nodup_flatMap_headerNames_iff (m : StringMap) :
    (m.entries.flatMap fun e => headerNames e.1).Nodup ↔
      (m.entries.map fun e => headerName e.1).Nodup := by
  rw [List.nodup_flatMap, List.nodup_iff_pairwise_ne, List.pairwise_map,
    and_iff_right fun (e : Bytes × Bytes) _ => nodup_headerNames e.1]
  constructor
  · exact fun hdisjoint => hdisjoint.imp fun h => disjoint_headerNames_iff.mp h
  · exact fun hnames => hnames.imp fun h => disjoint_headerNames_iff.mpr h

/-! ## The names of the server -/

/-- The names behind those of the headers. -/
def serverNames : List Bytes :=
  [bytes "REMOTE_ADDR", bytes "REMOTE_HOST", bytes "QUERY_STRING", bytes "REDIRECT_STATUS",
    bytes "PATH_INFO", bytes "REQUEST_URI", bytes "SCRIPT_FILENAME", bytes "GATEWAY_INTERFACE",
    bytes "SERVER_PROTOCOL", bytes "SERVER_SOFTWARE"]

/-- The environment, name by name. -/
theorem variableNames_eq (clientIP : Bytes) (h : Handler) :
    variableNames clientIP h =
      [bytes "REQUEST_METHOD"] ++ (h.context.headers.entries.flatMap fun e => headerNames e.1) ++
        serverNames := by
  have hheaders : ((addHeaders h.context.headers).map cstr).map variableName =
      h.context.headers.entries.flatMap fun e => headerNames e.1 := by
    unfold addHeaders
    rw [List.map_flatMap, List.map_flatMap]
    exact List.flatMap_congr fun e _ => variableName_headerEnvars e
  unfold variableNames envp envars addContext
  simp only [List.map_append, hheaders, List.map_cons, List.map_nil, variableName_envar, List.append_assoc]
  rfl

/-- No header gives a name of the server: those names have no prefix `HTTP_`, and they are not the two that
headers give without it. -/
theorem headerNames_ne_serverNames {name n : Bytes} (h : n ∈ headerNames name) :
    n ∉ bytes "REQUEST_METHOD" :: serverNames := by
  have hprefixed : ∀ n' ∈ bytes "REQUEST_METHOD" :: serverNames, n'.take 5 ≠ bytes "HTTP_" := by
    decide +kernel
  intro hmem
  rcases mem_headerNames h with rfl | ⟨rfl | rfl, rfl⟩
  · exact hprefixed _ hmem rfl
  · exact absurd hmem (by decide +kernel)
  · exact absurd hmem (by decide +kernel)

/-- **The environment has each variable once**, if and only if no two names of headers become the same:
in capitals, with `_` for `-`, up to an `=` or a NUL. -/
theorem nodup_variableNames_iff (clientIP : Bytes) (h : Handler) :
    (variableNames clientIP h).Nodup ↔
      (h.context.headers.entries.map fun e => headerName e.1).Nodup := by
  have hservers : (bytes "REQUEST_METHOD" :: serverNames).Nodup := by decide +kernel
  obtain ⟨hmethod, hserver⟩ := List.nodup_cons.mp hservers
  rw [variableNames_eq, ← nodup_flatMap_headerNames_iff]
  have hnone : ∀ n ∈ h.context.headers.entries.flatMap fun e => headerNames e.1,
      n ∉ bytes "REQUEST_METHOD" :: serverNames := fun n hn => by
    obtain ⟨e, -, hmem⟩ := List.mem_flatMap.mp hn
    exact headerNames_ne_serverNames hmem
  constructor
  · intro hnodup
    exact (List.nodup_append.mp (List.nodup_append.mp hnodup).1).2.1
  · intro hheaders
    refine List.nodup_append.mpr ⟨List.nodup_append.mpr ⟨List.nodup_singleton _, hheaders, ?_⟩, hserver, ?_⟩
    · rintro n hn n' hn' rfl
      obtain rfl := List.mem_singleton.mp hn
      exact hnone _ hn' List.mem_cons_self
    · rintro n hn n' hn' rfl
      rcases List.mem_append.mp hn with hn | hn
      · obtain rfl := List.mem_singleton.mp hn
        exact hmethod hn'
      · exact hnone n hn (List.mem_cons_of_mem _ hn')

/-- Two headers that differ in a letter's case. -/
def twoTokens : Handler where
  context := {
    server := .single 3 {} fun _ => 0
    headers := (OrderedMap.empty.insert (bytes "X-Token") (bytes "a")).insert (bytes "x_token") (bytes "b")
    world := { fs := { table := fun _ => none } } }
  request := { kind := .get, path := {}, cgiPath := none }

/-- Both give `HTTP_X_TOKEN`. -/
theorem not_nodup_variableNames :
    envar (bytes "HTTP_X_TOKEN") (bytes "a") ∈ envp (bytes "127.0.0.1") twoTokens ∧
      envar (bytes "HTTP_X_TOKEN") (bytes "b") ∈ envp (bytes "127.0.0.1") twoTokens ∧
      ¬ (variableNames (bytes "127.0.0.1") twoTokens).Nodup := by
  refine ⟨by decide +kernel, by decide +kernel, by decide +kernel⟩

end CgiBuilder
end Webserv
