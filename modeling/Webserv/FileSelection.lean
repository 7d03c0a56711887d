import Webserv.Requests

/-!
# The file that GET and HEAD select

`processing` of GET and HEAD ends at a regular file in two ways: the path of the target names it, or the
path names a directory and an index entry in it does.  `selectFile` says which file that is, in terms of the
file system alone.

* `Reaches`: the names that `processing` can come to, the path and the path followed by an index entry.
* `Processed`: what it can do, with the file it selects.
* `processed_processFile`: with a selected file, `processing` has served it; without one it has refused,
  redirected or listed a directory.

## Why the selection has a definition of its own

The code never says which file it has selected.  It tests, calls itself for an index, and serves or returns;
the selected file is the argument of the last call.  Several results ask for this file before anything is
done with it: which extension it has, which root it is below, whether it can be opened.  `selectFile`
answers this from the file system, the index entries and the path, and the lemma says that the code agrees
with it.  Conditions on requests are then conditions on `selectFile`, which are settled before the request
is processed.

## Why serving is a parameter

GET sends the file or starts a CGI, HEAD writes the headers only.  What happens up to the selection is the
same text in both classes.  So `processFile` is stated for any `serve`, any `finish` and any way to open a
directory, and its lemma is proved once; GET and HEAD are two instances.
-/

namespace Webserv

/-! ## Selection -/

/-- The path with its `stat`, when it can be read. -/
def Path.statReadable (p : Path) (sys : Sys) (fs : FileSystem) : Option Path :=
  match p.stat sys fs with
  | none => none
  | some q => if q.access fs .read then some q else none

/-- The regular file that a path leads to, by itself or through its first index that exists. -/
def selectFile (sys : Sys) (fs : FileSystem) (indexes : List Bytes) (p : Path) : Option Path :=
  if ¬ p.access fs .exists then none
  else
    match p.statReadable sys fs with
    | none => none
    | some q =>
      if q.isFile then some q
      else if ¬ q.isDir ∨ ¬ q.isDirFormat then none
      else
        match Handler.findIndex fs q indexes with
        | none => none
        | some test =>
          match (Path.ofString test).statReadable sys fs with
          | none => none
          | some r => if r.isFile then some r else none

theorem Path.stat_str {p q : Path} {sys : Sys} {fs : FileSystem} (h : p.stat sys fs = some q) :
    q.str = p.str := by
  unfold Path.stat at h
  obtain ⟨s, -, rfl⟩ := Option.map_eq_some_iff.mp h
  rfl

theorem Path.statReadable_str {p q : Path} {sys : Sys} {fs : FileSystem}
    (h : p.statReadable sys fs = some q) : q.str = p.str := by
  unfold Path.statReadable at h
  cases hs : p.stat sys fs with
  | none => simp [hs] at h
  | some r =>
    simp only [hs] at h
    split_ifs at h
    cases h
    exact Path.stat_str hs

namespace Handler

/-- An index that was found is an entry of the list, after the path. -/
theorem mem_of_findIndex {fs : FileSystem} {p : Path} {indexes : List Bytes} {test : Bytes}
    (h : findIndex fs p indexes = some test) :
    ∃ index ∈ indexes, test = p.concat (Path.ofString index) := by
  have hmem := List.mem_of_find?_eq_some h
  obtain ⟨index, hindex, rfl⟩ := List.mem_map.mp hmem
  exact ⟨index, hindex, rfl⟩

/-- The names that `processing` of GET and HEAD can come to: the path, and where that ends with a
slash an index entry after it. -/
def Reaches (h : Handler) (p : Path) : Prop :=
  p.str = h.request.path.str ∨ h.request.path.isDirFormat = true ∧
    ∃ index ∈ h.rule.indexes, p.str = squeeze (h.request.path.concat (Path.ofString index))

theorem reaches_of_findIndex {h : Handler} {fs : FileSystem} {p : Path} {test : Bytes}
    (hp : p.str = h.request.path.str) (hdir : p.isDirFormat = true)
    (hindex : findIndex fs p h.rule.indexes = some test) {q : Path} (hq : q.str = squeeze test) :
    h.Reaches q := by
  have hformat := Path.isDirFormat_congr hp
  obtain ⟨index, hmem, rfl⟩ := mem_of_findIndex hindex
  refine Or.inr ⟨hformat ▸ hdir, index, hmem, ?_⟩
  rw [hq, Path.concat, Path.concat, hp, hformat]

/-! ## Validation -/

section

variable (serve finish openDir : Handler → Handler) (sys : Sys)

theorem validateLocalFile_none {h : Handler}
    (hs : h.request.path.statReadable sys h.context.world.fs = none) :
    ∃ p code, p.str = h.request.path.str ∧ validateLocalFile serve finish sys h =
      (.reqDone, finish ((h.setPath p).setStatusCode code)) := by
  unfold Path.statReadable at hs
  unfold validateLocalFile
  cases ht : h.request.path.stat sys h.context.world.fs with
  | none => exact ⟨h.request.path, _, rfl, rfl⟩
  | some q =>
    simp only [ht] at hs
    split_ifs at hs with hread
    refine ⟨q, statusForbidden, Path.stat_str ht, ?_⟩
    dsimp only
    exact if_pos hread

theorem validateLocalFile_some {h : Handler} {q : Path}
    (hs : h.request.path.statReadable sys h.context.world.fs = some q) :
    validateLocalFile serve finish sys h =
      if q.isFile then (.reqDone, finish (serve (h.setPath q))) else (.reqContinue, h.setPath q) := by
  unfold Path.statReadable at hs
  unfold validateLocalFile
  cases ht : h.request.path.stat sys h.context.world.fs with
  | none => simp [ht] at hs
  | some r =>
    simp only [ht] at hs
    split_ifs at hs with hread
    cases hs
    dsimp only
    exact if_neg (not_not.mpr hread)

/-! ## Processing -/

/-- What `processing` of GET and HEAD can do, with the file it selects: it serves this file, or without one
it refuses, redirects or lists a directory. -/
inductive Processed (h : Handler) : Option Path → Handler → Prop where
  | served (q : Path) (hq : h.Reaches q) : Processed h (some q) (finish (serve (h.setPath q)))
  | refused (p : Path) (hp : h.Reaches p) (code : Nat) :
      Processed h none ((h.setPath p).setStatusCode code)
  | finished (p : Path) (hp : h.Reaches p) (code : Nat) :
      Processed h none (finish ((h.setPath p).setStatusCode code))
  | redirected (p : Path) (hp : h.Reaches p) (location : Bytes) :
      Processed h none
        (((h.setPath p).setStatusCode statusMovedPermanently).setHeader headerLocation location)
  | listed (p : Path) (hp : h.Reaches p) : Processed h none (openDir (h.setPath p))

theorem processed_listDirectory {h : Handler} {p : Path} (hp : h.Reaches p) :
    Processed serve finish openDir h none (listDirectory openDir (h.setPath p)) := by
  unfold listDirectory
  split_ifs
  · exact .listed p hp
  · exact .refused p hp _

/-- **What `processing` of GET and HEAD does.**  A selected file is served under its path; without
one the request is refused, redirected, or a directory is listed. -/
theorem processed_processFile (h : Handler) :
    Processed serve finish openDir h
      (selectFile sys h.context.world.fs h.rule.indexes h.request.path)
      (processFile (validateLocalFile serve finish sys) openDir h) := by
  rw [selectFile, processFile]
  by_cases hexists : ¬ h.request.path.access h.context.world.fs .exists
  · rw [if_pos hexists, if_pos hexists]
    exact .refused h.request.path (Or.inl rfl) _
  rw [if_neg hexists, if_neg hexists]
  cases hs : h.request.path.statReadable sys h.context.world.fs with
  | none =>
    obtain ⟨p, code, hp, hval⟩ := validateLocalFile_none serve finish sys hs
    rw [hval]
    exact .finished p (Or.inl hp) code
  | some q =>
    have hstr : q.str = h.request.path.str := Path.statReadable_str hs
    have hq : h.Reaches q := Or.inl hstr
    rw [validateLocalFile_some serve finish sys hs]
    by_cases hfile : q.isFile
    · simp only [if_pos hfile]
      exact .served q hq
    simp only [if_neg hfile]
    show Processed _ _ _ _ _
      (if ¬ q.isDir then (h.setPath q).setStatusCode statusConflict
        else if ¬ q.isDirFormat then _ else _)
    by_cases hdir : ¬ q.isDir
    · rw [if_pos (Or.inl hdir), if_pos hdir]
      exact .refused q hq _
    by_cases hformat : ¬ q.isDirFormat
    · rw [if_pos (Or.inr hformat), if_neg hdir, if_pos hformat]
      exact .redirected q hq _
    rw [if_neg (not_or.mpr ⟨hdir, hformat⟩), if_neg hdir, if_neg hformat]
    have hfetch : (h.setPath q).fetchIndexes =
        (findIndex h.context.world.fs q h.rule.indexes).map fun test =>
          h.setPath (Path.ofString test) := rfl
    rw [hfetch]
    cases hindex : findIndex h.context.world.fs q h.rule.indexes with
    | none => exact processed_listDirectory serve finish openDir hq
    | some test =>
      -- the index is validated like the path; when it is a directory the listing is its own
      have hreach : ∀ r : Path, r.str = (Path.ofString test).str → h.Reaches r := fun r hr =>
        reaches_of_findIndex hstr (not_not.mp hformat) hindex (by rw [hr, Path.ofString_str])
      simp only [Option.map_some]
      cases ht : (Path.ofString test).statReadable sys h.context.world.fs with
      | none =>
        obtain ⟨p, code, hp, hval⟩ :=
          @validateLocalFile_none serve finish sys (h.setPath (Path.ofString test)) ht
        rw [hval]
        exact .finished p (hreach p hp) code
      | some r =>
        have hr : h.Reaches r := hreach r (Path.statReadable_str ht)
        rw [@validateLocalFile_some serve finish sys (h.setPath (Path.ofString test)) r ht]
        by_cases hrfile : r.isFile
        · simp only [if_pos hrfile]
          exact .served r hr
        · simp only [if_neg hrfile]
          exact processed_listDirectory serve finish openDir hr

end

end Handler
end Webserv
