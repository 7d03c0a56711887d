import Webserv.LocationMatching
import Webserv.RootConfinement

/-!
# From the target to the file

A location is matched on components, but its prefix is cut off the target by its length.  What is left goes
behind the root, decoded, or behind the upload directory as it is.

* `LocationBlock.Parsed`, `LocationBlock.ParsedRoot`: the paths of a location, as the parser makes them.
* `chopTarget_found`: the prefix is never longer than the target.
* `stripsPrefix_iff`: the path behind the root is made of the other components exactly when the target
  begins with the path of the location as it stands.
* `storesWhereFound_iff`: an upload is where GET looks for it exactly when nothing is decoded.

## Why a length and a match can differ

Two targets with the same components can have different lengths, because slashes repeat.  A location is
found by its components, so `//a/b` is matched by `/a/`; but the prefix is cut off by the length of the
location's path, and from `//a/b` this takes one letter too few.  What is left then begins with a piece of
the prefix.  It is always short enough, though: the components of the location are components of the target,
each with a slash in front, so the target is at least as long as the prefix (`length_rooted_le`), and
`substr` does not throw.

## Why everything is said in components

The path is put together as a string and squeezed at the end.  Two strings make the same path when they have
the same components and both end with a slash, or both do not.  So the lemmas compute the components of each
intermediate string, and the theorem compares two lists (`components_localPath`, `components_strippedPath`).
It is exact in both directions since a piece of the prefix is a component that was not there.

## Why uploads are apart

PUT writes below the upload directory what GET reads below the root, and only the path below the root is
decoded.  With the same directory for both, the two paths agree exactly when the rest of the target has
nothing to decode.  Decoding makes a string shorter, which is how the difference is seen.
-/

namespace Webserv

open LexicalPath

/-! ## Squeezed strings -/

/-- A string that begins with a slash is squeezed to its components, each after a slash, and the slash at
its end. -/
theorem squeeze_of_head {s : Bytes} (hs : s.head? = some slash) :
    squeeze s = rooted slash (components slash s) ++ (if s.getLast? = some slash then [slash] else []) := by
  induction hn : s.length using Nat.strong_induction_on generalizing s with
  | _ n ih =>
    subst hn
    obtain ⟨t, rfl⟩ := List.head?_eq_some_iff.mp hs
    obtain ⟨w, rest, rfl, hw, hrest⟩ := exists_first_piece slash t
    by_cases hnil : w = []
    · subst hnil
      rcases hrest with rfl | ⟨rest, rfl⟩
      · rfl
      · -- a repeated slash
        rw [List.nil_append, squeeze_slash_slash, components_cons_sep, List.getLast?_cons_cons]
        exact ih _ (by simp) rfl rfl
    · have hcomponents := @components_append_piece _ _ slash [] w rest (Or.inl rfl) hw hrest
      rw [components_nil, List.nil_append, List.nil_append, piece, if_neg hnil] at hcomponents
      obtain ⟨a, w', rfl⟩ := List.exists_cons_of_ne_nil hnil
      have ha : a ≠ slash := fun heq => hw (heq ▸ List.mem_cons_self)
      have hfirst : squeeze (slash :: (a :: w' ++ rest)) = slash :: squeeze (a :: w' ++ rest) :=
        squeeze_slash_cons_of_ne ha _
      rw [hfirst, components_cons_sep, hcomponents, rooted_append]
      have hpiece : rooted slash [a :: w'] = slash :: (a :: w') := by simp [rooted]
      rw [hpiece]
      rcases hrest with rfl | ⟨rest, rfl⟩
      · have hlast : (slash :: (a :: w' ++ [])).getLast? ≠ some slash := by
          rw [List.append_nil, List.getLast?_cons_cons]
          exact fun heq => hw (List.mem_of_getLast? heq)
        rw [if_neg hlast, List.append_nil, squeeze_of_notMem hw, components_nil]
        simp [rooted]
      · have hlt : (slash :: rest).length < (slash :: (a :: w' ++ slash :: rest)).length := by
          simp only [List.length_cons, List.length_append]
          omega
        have hlast : (slash :: (a :: w' ++ slash :: rest)).getLast? = (slash :: rest).getLast? := by
          rw [← List.cons_append, List.getLast?_append_of_ne_nil _ (List.cons_ne_nil _ _)]
        have htail := ih _ hlt (List.head?_cons ..) rfl
        rw [squeeze_slash_cons, components_cons_sep] at htail
        rw [squeeze_append_slash, squeeze_concat_slash hw, hlast, components_cons_sep,
          List.append_assoc (slash :: (a :: w')), ← htail, List.append_assoc, List.singleton_append]
        rfl

/-! ## Locations -/

/-- The path of a location, as the configuration parser makes it for every location (`parsed_of_parse`). -/
structure LocationBlock.Parsed (loc : LocationBlock) : Prop where
  path : ∃ token, loc.path = Path.ofString (token ++ [slash])
  originForm : loc.path.isOriginForm = true

/-- The path of a location is its components, each after a slash, and a slash. -/
theorem LocationBlock.Parsed.path_str {loc : LocationBlock} (h : loc.Parsed) :
    loc.path.str = rooted slash loc.path.chunks ++ [slash] := by
  obtain ⟨token, hpath⟩ := h.path
  have horigin : (token ++ [slash]).head? = some slash := by
    have hhead := h.originForm
    rw [hpath, Path.isOriginForm, Path.ofString_str, head?_squeeze] at hhead
    simpa using hhead
  rw [hpath, Path.ofString_str, Path.ofString_chunks, squeeze_of_head horigin, if_pos List.getLast?_concat]

theorem LocationBlock.Parsed.mem_chunks {loc : LocationBlock} (h : loc.Parsed) :
    ∀ c ∈ loc.path.chunks, slash ∉ c ∧ c ≠ [] := by
  obtain ⟨token, hpath⟩ := h.path
  rw [hpath, Path.ofString_chunks]
  exact fun c hc => mem_components hc

theorem toUInt32_le {z : Int} {n : Nat} (hz : z = n) : toUInt32 z ≤ n := by
  unfold toUInt32
  omega

/-- The prefix is the path without its last slash; `uint32_t` makes it no longer. -/
theorem LocationBlock.Parsed.matchLength_le {loc : LocationBlock} (h : loc.Parsed) :
    loc.path.str.length - 1 = (rooted slash loc.path.chunks).length ∧
      loc.matchLength ≤ (rooted slash loc.path.chunks).length := by
  have hlength : loc.path.str.length = (rooted slash loc.path.chunks).length + 1 := by
    rw [h.path_str, List.length_append]
    rfl
  exact ⟨by omega, toUInt32_le (by omega)⟩

/-- The location that is found matches. -/
theorem isMatch_of_findLocationLoop {target : Path} {loc : LocationBlock} {locations : List LocationBlock}
    {selected : Option LocationBlock} {bestMatch : Nat}
    (hfound : ServerBlock.findLocationLoop target locations selected bestMatch = some loc)
    (hselected : ∀ loc ∈ selected, loc.isMatch target = true) : loc.isMatch target = true := by
  induction locations generalizing selected bestMatch with
  | nil => exact hselected loc hfound
  | cons first locations ih =>
    rw [ServerBlock.findLocationLoop] at hfound
    split_ifs at hfound with hlong hmatch hfull hlonger
    · exact ih hfound hselected
    · exact Option.some.inj hfound ▸ hmatch
    · exact ih hfound fun loc hloc => Option.some.inj hloc ▸ hmatch
    · exact ih hfound hselected
    · exact ih hfound hselected

/-- The components of a target that is matched. -/
theorem exists_components_of_isMatch {loc : LocationBlock} {target : Bytes}
    (hmatch : loc.isMatch (Path.ofString target) = true) :
    ∃ ds, components slash target = loc.path.chunks ++ ds := by
  obtain ⟨ds, hds⟩ := LocationBlock.isMatch_iff.mp hmatch
  rw [Path.ofString_chunks] at hds
  exact ⟨ds, hds.symm⟩

theorem starts_of_head {target : Bytes} (htarget : target.head? = some slash) : Starts slash target := by
  obtain ⟨t, rfl⟩ := List.head?_eq_some_iff.mp htarget
  exact Or.inr ⟨t, rfl⟩

/-- What is matched is no longer than the target. -/
theorem length_rooted_le {cs ds : List Bytes} {target : Bytes} (htarget : target.head? = some slash)
    (hcomponents : components slash target = cs ++ ds) : (rooted slash cs).length ≤ target.length := by
  have hle := (rooted_components (starts_of_head htarget)).1
  rw [hcomponents, rooted_append, List.length_append] at hle
  omega

/-! ## The prefix -/

theorem chopTarget_eq {loc : LocationBlock} {target : Bytes} (hle : loc.matchLength ≤ target.length) :
    chopTarget loc target = .ok (target.drop loc.matchLength) :=
  if_neg (by omega)

theorem createRequest_eq {loc : LocationBlock} (kind : RequestKind) {ctx : RequestContext}
    (hrule : ctx.ruleBlock = some loc) (hle : loc.matchLength ≤ ctx.target.length) :
    ∃ h, createRequest kind ctx = .ok h ∧
      h.request.path = localPath loc (ctx.target.drop loc.matchLength) := by
  have hloc : ctx.rule = loc := by rw [RequestContext.rule, hrule, Option.getD_some]
  refine ⟨{
    context := ctx.setState kind.initState
    request := {
      kind := kind
      path := localPath loc (ctx.target.drop loc.matchLength)
      cgiPath := loc.findCGI (localPath loc (ctx.target.drop loc.matchLength)).extension } }, ?_, rfl⟩
  unfold createRequest
  rw [hloc, chopTarget_eq hle]
  rfl

/-- **The prefix is never longer than the target**: for a location that is found for a target, `substr`
does not throw. -/
theorem chopTarget_found {block : ServerBlock} {loc : LocationBlock} {target : Bytes} (hloc : loc.Parsed)
    (htarget : target.head? = some slash) (hfound : block.findLocationBlock (Path.ofString target) = some loc) :
    loc.path.str.length - 1 ≤ target.length ∧ loc.matchLength ≤ target.length ∧
      (∃ chopedTarget, chopTarget loc target = .ok chopedTarget) ∧
      ∀ (kind : RequestKind) (ctx : RequestContext), ctx.ruleBlock = some loc → ctx.target = target →
        ∃ h, createRequest kind ctx = .ok h := by
  obtain ⟨ds, hds⟩ := exists_components_of_isMatch
    (isMatch_of_findLocationLoop hfound fun _ hnone => nomatch hnone)
  have hle := length_rooted_le htarget hds
  obtain ⟨hlength, hmatch⟩ := hloc.matchLength_le
  have hshort : loc.matchLength ≤ target.length := by omega
  refine ⟨by omega, hshort, ⟨_, chopTarget_eq hshort⟩, fun kind ctx hrule heq => ?_⟩
  subst heq
  obtain ⟨h, hcreate, -⟩ := createRequest_eq kind hrule hshort
  exact ⟨h, hcreate⟩

/-- A location that is found for a target with repeated slashes. -/
def photoLocation : LocationBlock where
  path := Path.ofString (bytes "/a/" ++ [slash])
  root := Path.ofString (bytes "/r" ++ [slash])
  clientBodyUploadPath := Path.ofString (bytes "/r" ++ [slash])
  allowed := 31

theorem parsed_photoLocation : photoLocation.Parsed := ⟨⟨bytes "/a/", rfl⟩, by decide⟩

theorem chopTarget_found_slashes :
    let block : ServerBlock := { locations := [photoLocation] }
    block.findLocationBlock (Path.ofString (bytes "//a")) = some photoLocation ∧
      photoLocation.path.str.length - 1 ≤ (bytes "//a").length := by
  intro block
  have hfound : block.findLocationBlock (Path.ofString (bytes "//a")) = some photoLocation := rfl
  exact ⟨hfound, (chopTarget_found parsed_photoLocation (by decide) hfound).1⟩

/-! ## Behind the root -/

/-- The directory that a location serves from, for a root that the constructor does not decode.  The parser makes
the root of every location so, unless the file names none for it (`LocationBlock.GivenDirs.parsedRoot`). -/
structure LocationBlock.ParsedRoot (loc : LocationBlock) : Prop where
  root : ∃ token, loc.root = Path.ofString (token ++ [slash])
  noPercent : percent ∉ loc.root.str

theorem LocationBlock.ParsedRoot.dirPath {loc : LocationBlock} (h : loc.ParsedRoot) : DirPath loc.root := by
  obtain ⟨token, hroot⟩ := h.root
  rw [hroot]
  exact Path.dirPath_ofString token

/-- The root followed by components, with a slash at the end or without one. -/
def strippedPath (root : Bytes) (ds : List Bytes) (trailing : Bool) : Bytes :=
  if ds = [] then if trailing then root else root.dropLast
  else root ++ (List.intercalate [slash] ds ++ if trailing then [slash] else [])

/-- The target ends with a slash. -/
def endsWithSlash (target : Bytes) : Bool := target.getLast? = some slash

/-- The constructor puts the components `ds` behind the root. -/
def StripsPrefix (kind : RequestKind) (ctx : RequestContext) (ds : List Bytes) : Prop :=
  ∃ h, createRequest kind ctx = .ok h ∧
    h.request.path.str = strippedPath ctx.rule.root.str ds (endsWithSlash ctx.target)

theorem decodeURI_of_notMem {s : Bytes} (h : percent ∉ s) : decodeURI s = s := by
  simpa [decodeURI] using decodeURI_append h []

theorem percent_notMem_squeeze {s : Bytes} (h : percent ∉ s) : percent ∉ squeeze s := by
  induction s with
  | nil => simp
  | cons a s ih =>
    rw [List.mem_cons, not_or] at h
    by_cases ha : a = slash
    · rw [ha, squeeze_slash_cons, ← dropWhile_squeeze, List.mem_cons, not_or]
      exact ⟨by decide, fun hmem => ih h.2 ((List.dropWhile_suffix _).subset hmem)⟩
    · rw [squeeze_cons_of_ne ha, List.mem_cons, not_or]
      exact ⟨h.1, ih h.2⟩

variable {loc : LocationBlock}

/-- What is not empty goes behind the root without its first slashes. -/
theorem localPath_of_ne_nil (hroot : loc.ParsedRoot) {v : Bytes} (hv : percent ∉ v) (hne : v ≠ []) :
    (localPath loc v).str = loc.root.str ++ (squeeze (slash :: v)).tail := by
  have hnone : percent ∉ squeeze (v.dropWhile (· = slash)) :=
    percent_notMem_squeeze fun hmem => hv ((List.dropWhile_suffix _).subset hmem)
  rw [localPath_eq hroot.dirPath hroot.noPercent, if_neg hne, remainder, decodeURI_of_notMem hnone,
    hroot.dirPath.squeeze_append, dropWhile_squeeze, List.dropWhile_idempotent, squeeze_squeeze,
    squeeze_slash_cons, List.tail_cons]

theorem components_dropLast {p : Path} (hp : DirPath p) :
    components slash p.str.dropLast = components slash p.str := by
  obtain ⟨r, hr⟩ := hp.exists_eq
  rw [hr, List.dropLast_concat, components_concat_sep]

/-- The components of the path that the constructor makes: those of the root, and behind them those of what
is left of the target. -/
theorem components_localPath (hroot : loc.ParsedRoot) {v : Bytes} (hv : percent ∉ v) :
    components slash (localPath loc v).str = components slash loc.root.str ++ components slash v := by
  by_cases hne : v = []
  · rw [localPath_eq hroot.dirPath hroot.noPercent, if_pos hne, hne, components_dropLast hroot.dirPath,
      components_nil, List.append_nil]
  · rw [localPath_of_ne_nil hroot hv hne, hroot.dirPath.components_append, squeeze_slash_cons, List.tail_cons,
      components_squeeze, components_dropWhile]

/-- The components of the path that the target stands for. -/
theorem components_strippedPath (hroot : loc.ParsedRoot) {ds : List Bytes}
    (hds : ∀ d ∈ ds, slash ∉ d ∧ d ≠ []) (trailing : Bool) :
    components slash (strippedPath loc.root.str ds trailing) = components slash loc.root.str ++ ds := by
  unfold strippedPath
  by_cases hnil : ds = []
  · subst hnil
    rw [if_pos rfl, List.append_nil]
    cases trailing with
    | false => exact components_dropLast hroot.dirPath
    | true => rfl
  · have hjoined : components slash (List.intercalate [slash] ds) = ds := by
      have hrooted := components_rooted hds
      rwa [rooted_eq_cons_intercalate slash hnil, components_cons_sep] at hrooted
    rw [if_neg hnil, hroot.dirPath.components_append]
    cases trailing with
    | false => rw [if_neg Bool.false_ne_true, List.append_nil, hjoined]
    | true => rw [if_pos rfl, components_concat_sep, hjoined]

/-- A target that is no longer than its components does not end with a slash. -/
theorem not_endsWithSlash_rooted {cs : List Bytes} (hcs : ∀ c ∈ cs, slash ∉ c ∧ c ≠ []) :
    endsWithSlash (rooted slash cs) = false := by
  rw [endsWithSlash, decide_eq_false_iff_not]
  intro hlast
  have hne : rooted slash cs ≠ [] := by
    intro hnil
    rw [hnil] at hlast
    cases hlast
  have hcut : rooted slash cs = (rooted slash cs).dropLast ++ [slash] :=
    (List.dropLast_append_getLast? slash hlast).symm
  -- without its last slash it would have the same components
  have hcomponents : components slash (rooted slash cs).dropLast = cs := by
    rw [← components_concat_sep, ← hcut, components_rooted hcs]
  have hstarts : Starts slash (rooted slash cs).dropLast := by
    cases cs with
    | nil => exact absurd rfl hne
    | cons c cs =>
      cases hdrop : (rooted slash (c :: cs)).dropLast with
      | nil => exact Or.inl rfl
      | cons a t =>
        rw [hdrop] at hcut
        obtain ⟨rfl, -⟩ := List.cons.inj (hcut.symm.trans rfl)
        exact Or.inr ⟨t, rfl⟩
  have hle := (rooted_components hstarts).1
  rw [hcomponents, List.length_dropLast] at hle
  have hpos := List.length_pos_iff.mpr hne
  omega

/-- **Prefix stripping.**  The path is the root followed by the components of the target behind those of
the location exactly when the target begins with the path of the location as it stands, without repeated
slashes in that part. -/
theorem stripsPrefix_iff (kind : RequestKind) {ctx : RequestContext} {ds : List Bytes} (hloc : loc.Parsed)
    (hroot : loc.ParsedRoot) (hrule : ctx.ruleBlock = some loc) (htarget : ctx.target.head? = some slash)
    (hpercent : percent ∉ ctx.target) (hcomponents : components slash ctx.target = loc.path.chunks ++ ds) :
    StripsPrefix kind ctx ds ↔ ctx.target.take loc.matchLength = rooted slash loc.path.chunks := by
  have hle := length_rooted_le htarget hcomponents
  have hmatch := hloc.matchLength_le.2
  have hchunks := hloc.mem_chunks
  have hds : ∀ d ∈ ds, slash ∉ d ∧ d ≠ [] := by
    intro d hd
    refine @mem_components _ _ slash ctx.target d ?_
    rw [hcomponents]
    exact List.mem_append_right _ hd
  obtain ⟨h, hcreate, hpath⟩ := createRequest_eq kind hrule (hmatch.trans hle)
  have hctx : ctx.rule = loc := by rw [RequestContext.rule, hrule, Option.getD_some]
  have hcut : ctx.target = ctx.target.take loc.matchLength ++ ctx.target.drop loc.matchLength :=
    (List.take_append_drop ..).symm
  have hstrips : StripsPrefix kind ctx ds ↔ (localPath loc (ctx.target.drop loc.matchLength)).str =
      strippedPath loc.root.str ds (endsWithSlash ctx.target) := by
    unfold StripsPrefix
    rw [hcreate, hctx]
    constructor
    · rintro ⟨h', heq, hstr⟩
      cases heq
      rwa [hpath] at hstr
    · exact fun hstr => ⟨h, rfl, by rw [hpath, hstr]⟩
  have hrest : percent ∉ ctx.target.drop loc.matchLength := fun hmem => hpercent (List.mem_of_mem_drop hmem)
  rw [hstrips]
  constructor
  · intro hstr
    -- the rest has its components to itself, and so has the prefix
    have hsame := congrArg (components slash) hstr
    rw [components_localPath hroot hrest, components_strippedPath hroot hds] at hsame
    have hright := List.append_cancel_left hsame
    rw [hcut, ← hright] at hcomponents
    have hleft := components_left hcomponents
    have hstarts : Starts slash (ctx.target.take loc.matchLength) := by
      obtain ⟨t, ht⟩ := List.head?_eq_some_iff.mp htarget
      rw [ht]
      cases loc.matchLength with
      | zero => exact Or.inl rfl
      | succ n => exact Or.inr ⟨t.take n, rfl⟩
    have hwhole := (rooted_components hstarts).2
    rw [hleft, List.length_take] at hwhole
    exact hwhole (by omega)
  · intro htake
    rw [htake] at hcut
    have hright : components slash (ctx.target.drop loc.matchLength) = ds := by
      refine @components_right _ _ slash (rooted slash loc.path.chunks) _ ds ?_
      rw [← hcut, hcomponents, components_rooted hchunks]
    generalize ctx.target.drop loc.matchLength = v at hcut hright hrest ⊢
    unfold strippedPath
    by_cases hv : v = []
    · -- nothing is left
      rw [hv, List.append_nil] at hcut
      rw [hv, components_nil] at hright
      rw [localPath_eq hroot.dirPath hroot.noPercent, if_pos hv, ← hright, if_pos rfl, hcut,
        not_endsWithSlash_rooted hchunks, if_neg Bool.false_ne_true]
    · have hlast : (slash :: v).getLast? = ctx.target.getLast? := by
        rw [hcut, List.getLast?_append_of_ne_nil _ hv, ← List.singleton_append,
          List.getLast?_append_of_ne_nil _ hv]
      have hsqueeze := squeeze_of_head (List.head?_cons (a := slash) (l := v))
      rw [components_cons_sep, hright, hlast] at hsqueeze
      rw [localPath_of_ne_nil hroot hrest hv, hsqueeze]
      by_cases hnil : ds = []
      · -- only slashes are left
        have hslash : ctx.target.getLast? = some slash := by
          by_contra hnot
          rw [hnil, if_neg hnot] at hsqueeze
          obtain ⟨u, hu⟩ := exists_squeeze_cons slash v
          rw [hu] at hsqueeze
          cases hsqueeze
        rw [hnil, if_pos rfl, endsWithSlash, hslash]
        simp [rooted]
      · rw [if_neg hnil, rooted_eq_cons_intercalate slash hnil, endsWithSlash]
        simp

theorem parsedRoot_photoLocation : photoLocation.ParsedRoot := ⟨⟨bytes "/r", rfl⟩, by decide⟩

/-- A request on the location. -/
def photoContext (target : Bytes) : RequestContext where
  server := .single 3 {} fun _ => 0
  ruleBlock := some photoLocation
  target := target
  world := { fs := { table := fun _ => none } }

/-- A target without repeated slashes. -/
theorem stripsPrefix_iff_plain :
    StripsPrefix .get (photoContext (bytes "/a/b")) [bytes "b"] ↔
      (bytes "/a/b").take photoLocation.matchLength = rooted slash photoLocation.path.chunks :=
  stripsPrefix_iff .get parsed_photoLocation parsedRoot_photoLocation rfl (by decide) (by decide) (by decide)

/-- A repeated slash before the prefix: the prefix is cut off one byte early, and the path has a component
of it. -/
theorem not_stripsPrefix :
    components slash (bytes "//a/b") = photoLocation.path.chunks ++ [bytes "b"] ∧
      strippedPath photoLocation.root.str [bytes "b"] false = bytes "/r/b" ∧
      (createRequest .get (photoContext (bytes "//a/b"))).toOption.map (fun h => h.request.path.str) =
        some (bytes "/r/a/b") ∧
      ¬ StripsPrefix .get (photoContext (bytes "//a/b")) [bytes "b"] := by
  refine ⟨by decide, by decide, by decide, ?_⟩
  rintro ⟨h, hcreate, hpath⟩
  have hstr : (createRequest .get (photoContext (bytes "//a/b"))).toOption.map (fun h => h.request.path.str) =
      some (bytes "/r/a/b") := by decide
  rw [hcreate] at hstr
  have hpath' : h.request.path.str = bytes "/r/a/b" := Option.some.inj hstr
  rw [hpath'] at hpath
  exact absurd hpath (by decide)

/-! ## Behind the upload directory -/

/-- A `%` with at least two bytes after it, which is what `decodeURI` takes for an escape, whatever the
bytes are. -/
def Encoded : Bytes → Prop
  | [] => False
  | c :: s => c = percent ∧ 2 ≤ s.length ∨ Encoded s

instance decidableEncoded : (s : Bytes) → Decidable (Encoded s)
  | [] => inferInstanceAs (Decidable False)
  | c :: s =>
    have := decidableEncoded s
    inferInstanceAs (Decidable (c = percent ∧ 2 ≤ s.length ∨ Encoded s))

theorem length_decodeURI_le (s : Bytes) : (decodeURI s).length ≤ s.length := by
  fun_induction decodeURI s with
  | case1 a b s ih =>
    simp only [List.length_cons]
    omega
  | case2 c a b s hc ih =>
    simp only [List.length_cons] at ih ⊢
    omega
  | case3 s => exact Nat.le_refl _

/-- Decoding changes what is encoded, and makes it shorter.  A string is therefore its own decoding exactly
if nothing in it is encoded. -/
theorem length_decodeURI_lt {s : Bytes} (h : Encoded s) : (decodeURI s).length < s.length := by
  fun_induction decodeURI s with
  | case1 a b s ih =>
    have hle := length_decodeURI_le s
    simp only [List.length_cons]
    omega
  | case2 c a b s hc ih =>
    have hlt := ih (h.resolve_left fun hand => hc hand.1)
    simp only [List.length_cons] at hlt ⊢
    omega
  | case3 s hshort =>
    match s, h, hshort with
    | [_], h, _ => exact absurd (h.resolve_right id).2 (by simp)
    | [_, _], h, _ =>
      rcases h with hand | hand
      · exact absurd hand.2 (by simp)
      · exact absurd (hand.resolve_right id).2 (by simp)
    | a :: b :: c :: s, _, hshort => exact absurd rfl (hshort a b c s)

theorem decodeURI_of_not_encoded {s : Bytes} (h : ¬ Encoded s) : decodeURI s = s := by
  fun_induction decodeURI s with
  | case1 a b s ih => exact absurd (Or.inl ⟨rfl, by simp⟩) h
  | case2 c a b s hc ih => rw [ih fun henc => h (Or.inr henc)]
  | case3 s => rfl

/-- Leading slashes are not encoded. -/
theorem encoded_dropWhile (s : Bytes) : Encoded (s.dropWhile (· = slash)) ↔ Encoded s := by
  induction s with
  | nil => rfl
  | cons a s ih =>
    by_cases ha : a = slash
    · have hpercent : ¬ a = percent := by
        rw [ha]
        decide
      rw [List.dropWhile_cons_of_pos (by simpa using ha), ih, Encoded]
      simp [hpercent]
    · rw [List.dropWhile_cons_of_neg (by simpa using ha)]

/-- A string of two bytes or more that does not end with a slash keeps two bytes. -/
theorem two_le_length_squeeze {s : Bytes} (hlast : s.getLast? ≠ some slash) :
    2 ≤ (squeeze s).length ↔ 2 ≤ s.length := by
  refine ⟨fun h => h.trans (length_squeeze_le s), fun h => ?_⟩
  have hne : s ≠ [] := by
    rintro rfl
    simp at h
  obtain ⟨t, a, rfl⟩ := (List.eq_nil_or_concat' s).resolve_left hne
  have ha : slash ∉ [a] := by
    rw [List.mem_singleton]
    rintro rfl
    exact hlast List.getLast?_concat
  have ht : t ≠ [] := by
    rintro rfl
    simp at h
  obtain ⟨b, t, rfl⟩ := List.exists_cons_of_ne_nil ht
  obtain ⟨u, hu⟩ := exists_squeeze_cons b t
  rw [squeeze_append_of_notMem ha, hu]
  simp

/-- Squeezing changes nothing about what is encoded. -/
theorem encoded_squeeze {s : Bytes} (hlast : s.getLast? ≠ some slash) :
    Encoded (squeeze s) ↔ Encoded s := by
  induction s with
  | nil => rw [squeeze_nil]
  | cons a s ih =>
    cases s with
    | nil => rw [squeeze_singleton]
    | cons b s =>
      rw [List.getLast?_cons_cons] at hlast
      have hpercent : slash ≠ percent := by decide
      rw [squeeze]
      split_ifs with hab
      · rw [ih hlast]
        exact ⟨Or.inr, fun h => h.resolve_left fun hand => hpercent (hab.1.symm.trans hand.1)⟩
      · rw [Encoded, ih hlast, two_le_length_squeeze hlast]
        rfl

/-- **What PUT stores, GET finds**: an upload below the root has the path of the constructor exactly when
nothing in the rest of its target is encoded. -/
theorem storesWhereFound_iff (kind : RequestKind) {ctx : RequestContext} {ds : List Bytes} (hloc : loc.Parsed)
    (hroot : loc.ParsedRoot) (hupload : loc.clientBodyUploadPath.str = loc.root.str)
    (hrule : ctx.ruleBlock = some loc) (htarget : ctx.target.head? = some slash)
    (hlast : ctx.target.getLast? ≠ some slash)
    (hcomponents : components slash ctx.target = loc.path.chunks ++ ds) (hds : ds ≠ []) :
    (∃ h, createRequest kind ctx = .ok h ∧
      h.request.path.str = (Handler.uploadPath loc ctx.target).str) ↔
        ¬ Encoded (ctx.target.drop loc.matchLength) := by
  have hmatch := hloc.matchLength_le.2
  have hlt : (rooted slash loc.path.chunks).length < ctx.target.length := by
    have hle := length_rooted_le htarget (hcomponents.trans (List.append_nil _).symm)
    have hpos : 0 < (rooted slash ds).length := by
      rw [rooted_eq_cons_intercalate slash hds]
      exact Nat.succ_pos _
    rw [rooted_append, List.length_append] at hle
    omega
  obtain ⟨h, hcreate, hpath⟩ := createRequest_eq kind hrule (hmatch.trans hlt.le)
  have hv : ctx.target.drop loc.matchLength ≠ [] := by
    rw [Ne, List.drop_eq_nil_iff]
    omega
  have hlast' : (ctx.target.drop loc.matchLength).getLast? ≠ some slash := by
    rwa [List.getLast?_drop, if_neg (by omega)]
  have hiff : (∃ h, createRequest kind ctx = .ok h ∧
      h.request.path.str = (Handler.uploadPath loc ctx.target).str) ↔
      (localPath loc (ctx.target.drop loc.matchLength)).str = (Handler.uploadPath loc ctx.target).str := by
    rw [hcreate]
    constructor
    · rintro ⟨h', heq, hstr⟩
      cases heq
      rwa [hpath] at hstr
    · exact fun hstr => ⟨h, rfl, by rw [hpath, hstr]⟩
  rw [hiff, localPath_eq hroot.dirPath hroot.noPercent, if_neg hv, Handler.uploadPath, Path.ofString_str,
    hupload, hroot.dirPath.squeeze_append, hroot.dirPath.squeeze_append]
  generalize ctx.target.drop loc.matchLength = v at hlast' ⊢
  have hencoded : Encoded (squeeze (v.dropWhile (· = slash))) ↔ Encoded v := by
    rw [← dropWhile_squeeze, encoded_dropWhile, encoded_squeeze hlast']
  rw [← hencoded, List.append_cancel_left_eq, remainder]
  constructor
  · intro heq henc
    -- the decoded rest is shorter
    have hshort := length_decodeURI_lt henc
    have hle : (squeeze ((decodeURI (squeeze (v.dropWhile (· = slash)))).dropWhile (· = slash))).length ≤
        (decodeURI (squeeze (v.dropWhile (· = slash)))).length :=
      (length_squeeze_le _).trans (List.dropWhile_suffix _).length_le
    rw [heq] at hle
    exact absurd hshort (Nat.not_lt.mpr hle)
  · intro henc
    rw [decodeURI_of_not_encoded henc, dropWhile_squeeze, List.dropWhile_idempotent, squeeze_squeeze]

/-- A target without a `%`. -/
theorem storesWhereFound_iff_plain :
    (∃ h, createRequest .get (photoContext (bytes "/a/b")) = .ok h ∧
      h.request.path.str = (Handler.uploadPath photoLocation (bytes "/a/b")).str) ↔
        ¬ Encoded ((bytes "/a/b").drop photoLocation.matchLength) :=
  storesWhereFound_iff .get parsed_photoLocation parsedRoot_photoLocation rfl rfl (by decide) (by decide)
    (by decide : components slash (bytes "/a/b") = photoLocation.path.chunks ++ [bytes "b"]) (by decide)

/-- A space in the name: PUT writes `/r/b%20c`, and GET looks for `/r/b c`. -/
theorem not_storesWhereFound :
    (Handler.uploadPath photoLocation (bytes "/a/b%20c")).str = bytes "/r/b%20c" ∧
      (createRequest .get (photoContext (bytes "/a/b%20c"))).toOption.map (fun h => h.request.path.str) =
        some (bytes "/r/b c") ∧
      ¬ ∃ h, createRequest .get (photoContext (bytes "/a/b%20c")) = .ok h ∧
        h.request.path.str = (Handler.uploadPath photoLocation (bytes "/a/b%20c")).str := by
  have hstr : (createRequest .get (photoContext (bytes "/a/b%20c"))).toOption.map
      (fun h => h.request.path.str) = some (bytes "/r/b c") := by decide
  have hupload : (Handler.uploadPath photoLocation (bytes "/a/b%20c")).str = bytes "/r/b%20c" := by decide
  refine ⟨hupload, hstr, ?_⟩
  rintro ⟨h, hcreate, hpath⟩
  rw [hcreate] at hstr
  rw [hupload] at hpath
  exact absurd (hpath.symm.trans (Option.some.inj hstr)) (by decide)

end Webserv
