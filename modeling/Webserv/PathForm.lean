import Webserv.Path

/-!
# The constructor of `Path`

The constructor replaces the first `//` by `/` until there is none, and takes the components from what is
left, with `getline`.  Routing reads the components, prefix stripping and the root read the string, and both
have to mean the same path.

* `Collapses`: the loop, as it runs; `collapses_iff`: it ends, with the string of the path.
* `tokens_eq_components`: the components are those of the string.
* `NormalForm`: what a path is, compared with its string.
* `normalForm_ofString`: the constructor makes it.

## Why the loop is a relation

In the model the constructor squeezes its string in one pass, which is easy to reason about and is not what
the source does.  The source searches, replaces and searches again, and a replacement can make a new `//` at
the place of the old one.  `Collapses` is a run of that loop, replacement by replacement.  That the loop
ends is a statement about runs, namely that there is one from every string, and that it ends with the
squeezed string says that the pass in the model is right (`collapses_iff`).

## Why the components are scanned again

The same holds for the components.  The source reads tokens up to a slash and drops the empty ones; the
model takes the maximal parts without a slash.  `tokens_eq_components` is an induction on the string, with
what has been read of the next token as a parameter.  The normal form puts both together: no `//` in the
string, the components those of the string that was given, and the question whether it begins with a slash
answered as before.
-/

namespace Webserv

open LexicalPath

/-! ## The loop -/

/-- A run of `while (pos != npos)` from a string, to its end. -/
inductive Collapses : Bytes → Bytes → Prop where
  | done {path : Bytes} (h : Search.findSub [slash, slash] path = none) : Collapses path path
  | replace {path result : Bytes} {pos : Nat} (h : Search.findSub [slash, slash] path = some pos)
      (hrest : Collapses (path.take pos ++ slash :: path.drop (pos + 2)) result) : Collapses path result

/-- One replacement takes a letter away, which is why the loop of the source ends. -/
theorem length_replace {path : Bytes} {pos : Nat} (h : Search.findSub [slash, slash] path = some pos) :
    (path.take pos ++ slash :: path.drop (pos + 2)).length + 1 = path.length := by
  have hle : pos + 2 ≤ path.length := Search.add_le_of_findSub h
  rw [List.length_append, List.length_take, List.length_cons, List.length_drop]
  omega

theorem collapses_collapse : ∀ {n : Nat} {path : Bytes}, path.length ≤ n → Collapses path (collapse n path)
  | 0, path, h => by
    rw [List.eq_nil_of_length_eq_zero (by omega : path.length = 0)]
    exact .done rfl
  | n + 1, path, h => by
    rw [collapse]
    cases hfind : Search.findSub [slash, slash] path with
    | none => exact .done hfind
    | some pos =>
      have hlength := length_replace hfind
      exact .replace hfind (collapses_collapse (by omega))

theorem Collapses.unique {path result result' : Bytes} (h : Collapses path result)
    (h' : Collapses path result') : result = result' := by
  induction h with
  | done hfind =>
    cases h' with
    | done => rfl
    | replace hfind' =>
      rw [hfind] at hfind'
      cases hfind'
  | replace hfind hrest ih =>
    cases h' with
    | done hfind' =>
      rw [hfind] at hfind'
      cases hfind'
    | replace hfind' hrest' =>
      rw [hfind] at hfind'
      cases hfind'
      exact ih hrest'

/-- **The loop ends**, with the string of the path: a run exists from every string, and all runs end alike.
Each replacement makes the string shorter. -/
theorem collapses_iff {path result : Bytes} : Collapses path result ↔ result = (Path.ofString path).str := by
  have hruns : Collapses path (Path.ofString path).str := collapses_collapse (le_refl _)
  constructor
  · exact fun h => h.unique hruns
  · rintro rfl
    exact hruns

/-- Where it ends there is no `//`: that is the condition under which the loop is left. -/
theorem Collapses.no_repeat {path result : Bytes} (h : Collapses path result) :
    ¬ [slash, slash] <:+: result := by
  induction h with
  | done hfind => exact Search.findSub_eq_none_iff.mp hfind
  | replace _ _ ih => exact ih

/-! ## The components -/

/-- The loop over `getline(ss, token, '/')`, with what has been read of the next token. -/
def tokensFrom : Bytes → Bytes → List Bytes
  | [], token => piece token
  | c :: path, token =>
    if c = slash then piece token ++ tokensFrom path [] else tokensFrom path (token ++ [c])

theorem tokensFrom_eq_components : ∀ {path token : Bytes}, slash ∉ token →
    tokensFrom path token = components slash (token ++ path)
  | [], token, htoken => by
    rw [tokensFrom, List.append_nil, components_of_notMem htoken]
  | c :: path, token, htoken => by
    rw [tokensFrom]
    by_cases hc : c = slash
    · rw [if_pos hc, hc, components_append_cons, components_of_notMem htoken,
        tokensFrom_eq_components List.not_mem_nil, List.nil_append]
    · have hconcat : slash ∉ token ++ [c] := by
        rw [List.mem_append, List.mem_singleton, not_or]
        exact ⟨htoken, Ne.symm hc⟩
      rw [if_neg hc, tokensFrom_eq_components hconcat, List.append_assoc, List.singleton_append]

/-- The scan of the string gives the components.  By recursion along the scan, with the letters of the
current token before it. -/
theorem tokens_eq_components (path : Bytes) : tokensFrom path [] = components slash path :=
  tokensFrom_eq_components List.not_mem_nil

/-- The parts of a string between slashes, without the empty ones. -/
def nonEmptyParts (s : Bytes) : List Bytes := (s.splitOn slash).filter (· ≠ [])

theorem segments_eq_splitOn : ∀ s : Bytes, segments slash s = s.splitOn slash
  | [] => rfl
  | c :: s => by
    rw [segments, List.splitOn_cons_eq_if_modifyHead, segments_eq_splitOn s]
    by_cases hc : c = slash
    · rw [if_pos hc, if_pos (beq_iff_eq.mpr hc)]
    · rw [if_neg hc, if_neg (by rwa [beq_iff_eq])]
      obtain ⟨w, rest, heq⟩ := List.exists_cons_of_ne_nil (List.splitOn_ne_nil slash s)
      rw [heq]
      rfl

theorem components_eq_nonEmptyParts (s : Bytes) : components slash s = nonEmptyParts s := by
  rw [components, segments_eq_splitOn, nonEmptyParts]

/-! ## The normal form -/

/-- The path of a string: the loop ends with it, it has no `//`, and its components and the slashes at its
two ends are those of the string. -/
structure NormalForm (s : Bytes) (p : Path) : Prop where
  terminates : Collapses s p.str
  noRepeat : ¬ [slash, slash] <:+: p.str
  parts : nonEmptyParts p.str = nonEmptyParts s
  originForm : p.isOriginForm = true ↔ s.head? = some slash
  dirFormat : p.isDirFormat = true ↔ s.getLast? = some slash
  fileFormat : p.isFileFormat = true ↔ s ≠ [] ∧ s.getLast? ≠ some slash
  scanned : p.chunks = tokensFrom p.str []
  chunks : p.chunks = nonEmptyParts s
  fixed : Path.ofString p.str = p

theorem Path.ofString_eq (s : Bytes) :
    Path.ofString s = { str := squeeze s, chunks := components slash (squeeze s) } := by
  rw [Path.ofString, collapse_eq_squeeze (le_refl _)]

/-- A string is empty when its squeezed form is. -/
theorem squeeze_eq_nil_iff {s : Bytes} : squeeze s = [] ↔ s = [] := by
  rw [← List.head?_eq_none_iff, head?_squeeze, List.head?_eq_none_iff]

/-- **The constructor ends, and leaves the normal form of the string**, which is its own normal form. -/
theorem normalForm_ofString (s : Bytes) : NormalForm s (Path.ofString s) where
  terminates := collapses_iff.mpr rfl
  noRepeat := (collapses_iff.mpr rfl : Collapses s _).no_repeat
  parts := by
    rw [← components_eq_nonEmptyParts, ← components_eq_nonEmptyParts, Path.ofString_str, components_squeeze]
  originForm := by
    rw [Path.isOriginForm, Path.ofString_str, head?_squeeze, decide_eq_true_iff]
  dirFormat := by
    rw [Path.isDirFormat, Path.ofString_str, getLast?_squeeze, decide_eq_true_iff]
  fileFormat := by
    rw [Path.isFileFormat, Path.ofString_str, getLast?_squeeze, Bool.and_eq_true, decide_eq_true_iff,
      decide_eq_true_iff, Ne, squeeze_eq_nil_iff]
  scanned := by
    rw [tokens_eq_components, (Path.normal_ofString s).chunks_eq]
  chunks := by
    rw [Path.ofString_chunks, components_eq_nonEmptyParts]
  fixed := by
    rw [Path.ofString_str, Path.ofString_eq, squeeze_squeeze, ← Path.ofString_eq]

example : (Path.ofString (bytes "//a///b/")).chunks = [bytes "a", bytes "b"] := by decide

end Webserv
