import Webserv.System
import Webserv.Lib.Search
import Webserv.Lib.LexicalPath

/-!
# `Path`

A path holds a string without `//` and the list of its non-empty components, both computed by the
constructor from the string it is given, and the result of the last `stat`.

* `collapse`: the loop of the constructor, with a bound on its rounds.
* `squeeze`: the same function by recursion (`collapse_eq_squeeze`).
* `Path` and its operations, under the names of the source.
* `Path.Normal`: a path as the constructor leaves it (`Path.normal_ofString`).

## Why there are two functions for one loop

The constructor looks for the first `//`, replaces it by `/`, and begins again at the front.  Every round
makes the string shorter by one, so the length of the string is enough as a bound, and `collapse` is the
loop as it is written.  But nothing is easy to prove about it: what it does to `s ++ t` depends on where the
slashes of both are.  `squeeze` looks at two letters at a time and drops the first of two slashes.  The two
are equal by an induction on the bound, in which one replacement leaves the squeezed string as it was
(`squeeze_replace`).  After that the lemmas are about `squeeze`: that it is idempotent, keeps the first and
the last letter and the components, and how it goes through an append.

## What a path does not do

A path is not resolved.  The components `.` and `..` are kept like any others, and a string with a NUL in it
is kept whole, while the system calls stop at the NUL.  Both matter: what directory a request may leave is
decided in these terms.  The program compares paths by their components (`prefixMatch`) when it chooses a
location, and joins them by their strings (`concat`) when it makes a name for the file system.
-/

namespace Webserv

open LexicalPath

/-- `while (pos = path.find("//")) path.replace(pos, 2, 1, '/')`, at most `n` times. -/
def collapse : Nat → Bytes → Bytes
  | 0, path => path
  | n + 1, path =>
    match Search.findSub [slash, slash] path with
    | none => path
    | some pos => collapse n (path.take pos ++ slash :: path.drop (pos + 2))

/-- The string without repeated slashes: of two slashes in a row the first is dropped. -/
def squeeze : Bytes → Bytes
  | a :: b :: path =>
    if a = slash ∧ b = slash then squeeze (b :: path) else a :: squeeze (b :: path)
  | path => path

/-- The string before the last separator and the string after it; `none` without a separator. -/
def splitLast (sep : Byte) : Bytes → Option (Bytes × Bytes)
  | [] => none
  | a :: s =>
    match splitLast sep s with
    | some (b, t) => some (a :: b, t)
    | none => if a = sep then some ([], s) else none

/-- `Path`: the string as it is passed to the system calls, and its components, as locations are compared
by. -/
structure Path where
  str : Bytes := []
  chunks : List Bytes := []
  /-- The result of the last successful `stat`. -/
  st : Option Stat := none
  deriving DecidableEq

namespace Path

/-- `Path::Path(const std::string &)`.  The components are the non-empty tokens of `getline`. -/
def ofString (str : Bytes) : Path :=
  let path := collapse str.length str
  { str := path, chunks := components slash path }

def isEmpty (p : Path) : Bool := p.str.isEmpty

def isOriginForm (p : Path) : Bool := p.str.head? = some slash

/-- `Path::isFileFormat`: the name does not end in a slash.  It says nothing about what is on the disk. -/
def isFileFormat (p : Path) : Bool := p.str ≠ [] && p.str.getLast? ≠ some slash

def isDirFormat (p : Path) : Bool := p.str.getLast? = some slash

/-- The formats are those of the string. -/
theorem isFileFormat_congr {p q : Path} (h : q.str = p.str) : q.isFileFormat = p.isFileFormat := by
  unfold isFileFormat
  rw [h]

theorem isDirFormat_congr {p q : Path} (h : q.str = p.str) : q.isDirFormat = p.isDirFormat := by
  unfold isDirFormat
  rw [h]

theorem not_isFileFormat {p : Path} (h : p.isDirFormat = true) : ¬ p.isFileFormat = true := by
  unfold isDirFormat at h
  unfold isFileFormat
  simp_all

/-- `0 == path.access(mode)`.  The system call stops at the first NUL of the string. -/
def access (p : Path) (fs : FileSystem) (mode : AccessMode) : Bool := fs.access p.str mode

/-- `Path::stat`: the path remembers what the call tells; `none` when the call fails. -/
def stat (p : Path) (sys : Sys) (fs : FileSystem) : Option Path :=
  (sys.stat fs p.str).map fun s => { p with st := some s }

/-- `Path::isFile`.  The program asks only after a successful `stat`. -/
def isFile (p : Path) : Bool := match p.st with | some s => s.isReg | none => false

/-- `Path::isDir`, from what `stat` has told; without a `stat` it is false. -/
def isDir (p : Path) : Bool := match p.st with | some s => s.isDir | none => false

/-- `Path::size`, from what `stat` has told, a `long`. -/
def size (p : Path) : Int := match p.st with | some s => s.size | none => 0

/-- `Path::mTime`. -/
def mTime (p : Path) : Int := match p.st with | some s => s.mtime | none => 0

/-- `Path::deviceID`. -/
def deviceID (p : Path) : Nat := match p.st with | some s => s.dev | none => 0

/-- `Path::extension`: what follows the last dot of the last component, unless nothing does.  A CGI is
chosen by it. -/
def extension (p : Path) : Bytes :=
  match p.chunks.getLast? with
  | none => []
  | some src => match splitLast dot src with | some (_, ext) => ext | none => []

/-- `Path::dir`: what is before the last slash, as a path of its own. -/
def dir (p : Path) : Path :=
  match splitLast slash p.str with
  | some (d, _) => ofString d
  | none => p

/-- `Path::notdir`: what is after the last slash, which is empty for a name that ends in one. -/
def notdir (p : Path) : Bytes :=
  match splitLast slash p.str with
  | some (_, f) => f
  | none => p.str

/-- `Path::length`: the number of its components. -/
def length (p : Path) : Nat := p.chunks.length

/-- `Path::prefixLength`: how many components a location has to match, without the last one where it is a
file name. -/
def prefixLength (p : Path) : Nat :=
  if p.isDirFormat then p.chunks.length
  else if p.chunks.length = 0 then 0 else p.chunks.length - 1

/-- `Path::prefixMatch`: the components agree as far as those of this path go. -/
def prefixMatch (p other : Path) : Bool := p.chunks.isPrefixOf other.chunks

/-- `Path::concat`: the two strings, with one slash where both have one at the seam. -/
def concat (p other : Path) : Bytes :=
  if p.isDirFormat ∧ other.isOriginForm then p.str ++ other.str.drop 1
  else p.str ++ other.str

end Path

/-! ## The constructor -/

@[simp] theorem squeeze_nil : squeeze [] = [] := by simp [squeeze]

@[simp] theorem squeeze_singleton (a : Byte) : squeeze [a] = [a] := by simp [squeeze]

theorem squeeze_slash_slash (s : Bytes) :
    squeeze (slash :: slash :: s) = squeeze (slash :: s) := by
  rw [squeeze, if_pos ⟨rfl, rfl⟩]

theorem squeeze_cons_of_ne {a : Byte} (h : a ≠ slash) (s : Bytes) :
    squeeze (a :: s) = a :: squeeze s := by
  cases s with
  | nil => simp
  | cons b s => rw [squeeze, if_neg (fun hab => h hab.1)]

theorem squeeze_slash_cons_of_ne {b : Byte} (h : b ≠ slash) (s : Bytes) :
    squeeze (slash :: b :: s) = slash :: squeeze (b :: s) := by
  rw [squeeze, if_neg (fun hab => h hab.2)]

/-- One replacement of `//` by `/` does not change the squeezed string. -/
theorem squeeze_replace (t : Bytes) :
    ∀ s : Bytes, squeeze (s ++ slash :: slash :: t) = squeeze (s ++ slash :: t)
  | [] => squeeze_slash_slash t
  | [a] => by
    by_cases ha : a = slash
    · subst ha
      simp only [List.singleton_append, squeeze_slash_slash]
    · simp only [List.singleton_append, squeeze_cons_of_ne ha, squeeze_slash_slash]
  | a :: b :: s => by
    have ih := squeeze_replace t (b :: s)
    simp only [List.cons_append] at ih ⊢
    rw [squeeze, squeeze, ih]

/-- A string without `//` is squeezed. -/
theorem squeeze_eq_self : ∀ {s : Bytes}, ¬ [slash, slash] <:+: s → squeeze s = s
  | [], _ => squeeze_nil
  | [a], _ => squeeze_singleton a
  | a :: b :: s, h => by
    have htail : ¬ [slash, slash] <:+: b :: s := fun hs => h (hs.trans (List.suffix_cons ..).isInfix)
    have hab : ¬ (a = slash ∧ b = slash) := by
      rintro ⟨rfl, rfl⟩
      exact h (List.prefix_append [slash, slash] s).isInfix
    rw [squeeze, if_neg hab, squeeze_eq_self htail]

/-- The loop and the recursion are the same function, when the bound is the length of the string. -/
theorem collapse_eq_squeeze : ∀ {n : Nat} {s : Bytes}, s.length ≤ n → collapse n s = squeeze s
  | 0, s, h => by
    rw [List.eq_nil_of_length_eq_zero (by omega : s.length = 0)]
    rfl
  | n + 1, s, h => by
    rw [collapse]
    cases hf : Search.findSub [slash, slash] s with
    | none => exact (squeeze_eq_self (Search.findSub_eq_none_iff.mp hf)).symm
    | some pos =>
      have hs := Search.eq_take_append_of_findSub hf
      have hle : pos + 2 ≤ s.length := Search.add_le_of_findSub hf
      simp only [List.cons_append, List.nil_append, List.length_cons, List.length_nil] at hs
      have hlen : (s.take pos ++ slash :: s.drop (pos + 2)).length ≤ n := by
        rw [List.length_append, List.length_take, List.length_cons, List.length_drop]
        omega
      show collapse n (s.take pos ++ slash :: s.drop (pos + 2)) = squeeze s
      rw [collapse_eq_squeeze hlen, ← squeeze_replace, ← hs]

@[simp] theorem Path.ofString_str (s : Bytes) : (Path.ofString s).str = squeeze s :=
  collapse_eq_squeeze (le_refl _)

/-- The leading slashes of what follows a slash are dropped. -/
theorem squeeze_slash_cons : ∀ t : Bytes,
    squeeze (slash :: t) = slash :: squeeze (t.dropWhile (· = slash))
  | [] => by simp
  | b :: t => by
    by_cases hb : b = slash
    · rw [hb, squeeze_slash_slash, squeeze_slash_cons t, List.dropWhile_cons_of_pos (by simp)]
    · rw [squeeze_slash_cons_of_ne hb, List.dropWhile_cons_of_neg (by simpa using hb)]

/-- A string cut at a slash is squeezed on both sides of it. -/
theorem squeeze_append_slash (x : Bytes) : ∀ r : Bytes,
    squeeze (r ++ slash :: x) = squeeze (r ++ [slash]) ++ squeeze (x.dropWhile (· = slash))
  | [] => by simpa using squeeze_slash_cons x
  | [a] => by
    by_cases ha : a = slash
    · subst ha
      simp only [List.singleton_append, squeeze_slash_slash]
      simpa using squeeze_slash_cons x
    · have h := squeeze_slash_cons x
      simp only [squeeze_cons_of_ne ha, h, squeeze_singleton, List.cons_append, List.nil_append]
  | a :: b :: r => by
    have ih := squeeze_append_slash x (b :: r)
    simp only [List.cons_append] at ih ⊢
    rw [squeeze, squeeze, ih]
    split <;> rfl

/-- The components of a string without slashes before a slash are cut off. -/
theorem components_dropWhile : ∀ t : Bytes,
    components slash (t.dropWhile (· = slash)) = components slash t
  | [] => by simp
  | b :: t => by
    by_cases hb : b = slash
    · rw [hb, List.dropWhile_cons_of_pos (by simp), components_cons_sep, components_dropWhile t]
    · rw [List.dropWhile_cons_of_neg (by simpa using hb)]

/-- What has no slash has none to drop. -/
theorem squeeze_of_notMem {s : Bytes} (h : slash ∉ s) : squeeze s = s := by
  refine squeeze_eq_self fun hs => h ?_
  exact hs.subset (List.mem_cons_self ..)

/-- One component and the slash after it are left alone. -/
theorem squeeze_concat_slash : ∀ {w : Bytes}, slash ∉ w → squeeze (w ++ [slash]) = w ++ [slash]
  | [], _ => squeeze_singleton slash
  | a :: w, h => by
    rw [List.mem_cons, not_or] at h
    rw [List.cons_append, squeeze_cons_of_ne (fun ha => h.1 ha.symm), squeeze_concat_slash h.2]

/-- Squeezing keeps the components. -/
theorem components_squeeze (s : Bytes) :
    components slash (squeeze s) = components slash s := by
  induction hn : s.length using Nat.strong_induction_on generalizing s with
  | _ n ih =>
    by_cases hs : slash ∈ s
    · obtain ⟨w, t, rfl, hw⟩ := List.eq_append_cons_of_mem hs
      have hlen : (t.dropWhile (· = slash)).length < n := by
        have := (List.dropWhile_suffix (· = slash) : t.dropWhile (· = slash) <:+ t).length_le
        rw [← hn, List.length_append, List.length_cons]
        omega
      rw [squeeze_append_slash, squeeze_concat_slash hw, List.append_assoc,
        List.singleton_append, components_append_cons, components_append_cons,
        ih _ hlen _ rfl, components_dropWhile]
    · rw [squeeze_of_notMem hs]

/-! ## Normal paths -/

/-- A path as the constructor leaves it: no two slashes in a row, and the components are those of the
string. -/
structure Path.Normal (p : Path) : Prop where
  squeeze_str : squeeze p.str = p.str
  chunks_eq : p.chunks = components slash p.str

/-- Squeezing keeps the first letter. -/
theorem exists_squeeze_cons (a : Byte) : ∀ s : Bytes, ∃ u, squeeze (a :: s) = a :: u
  | [] => ⟨[], squeeze_singleton a⟩
  | b :: s => by
    rw [squeeze]
    split_ifs with h
    · obtain ⟨u, hu⟩ := exists_squeeze_cons b s
      exact ⟨u, by rw [hu, h.1, h.2]⟩
    · exact ⟨_, rfl⟩

/-- Squeezing twice is squeezing once. -/
theorem squeeze_squeeze : ∀ s : Bytes, squeeze (squeeze s) = squeeze s
  | [] => by simp
  | [a] => by simp
  | a :: b :: s => by
    have ih := squeeze_squeeze (b :: s)
    rw [squeeze]
    split_ifs with h
    · exact ih
    · obtain ⟨u, hu⟩ := exists_squeeze_cons b s
      rw [hu] at ih ⊢
      rw [squeeze, if_neg h, ih]

theorem Path.normal_ofString (s : Bytes) : (Path.ofString s).Normal where
  squeeze_str := by rw [Path.ofString_str, squeeze_squeeze]
  chunks_eq := rfl

/-- The components of a path are those of the string it was made from. -/
@[simp] theorem Path.ofString_chunks (s : Bytes) :
    (Path.ofString s).chunks = components slash s := by
  rw [(Path.normal_ofString s).chunks_eq, Path.ofString_str, components_squeeze]

@[simp] theorem Path.ofString_st (s : Bytes) : (Path.ofString s).st = none := rfl

/-- What is appended to a squeezed string might as well have been appended before. -/
theorem squeeze_squeeze_append (t : Bytes) : ∀ s : Bytes, squeeze (squeeze s ++ t) = squeeze (s ++ t)
  | [] => by rw [squeeze_nil]
  | [a] => by rw [squeeze_singleton]
  | a :: b :: s => by
    have ih := squeeze_squeeze_append t (b :: s)
    rw [List.cons_append, List.cons_append, squeeze, squeeze]
    split_ifs with h
    · rw [ih, List.cons_append]
    · obtain ⟨u, hu⟩ := exists_squeeze_cons b s
      rw [hu] at ih ⊢
      rw [List.cons_append, List.cons_append, squeeze, if_neg h, ← List.cons_append, ih,
        List.cons_append]

/-- Dropping the leading slashes and squeezing commute. -/
theorem dropWhile_squeeze : ∀ s : Bytes,
    (squeeze s).dropWhile (· = slash) = squeeze (s.dropWhile (· = slash))
  | [] => rfl
  | a :: s => by
    by_cases ha : a = slash
    · rw [ha, squeeze_slash_cons, List.dropWhile_cons_of_pos (by simp),
        List.dropWhile_cons_of_pos (by simp)]
      cases hd : s.dropWhile (· = slash) with
      | nil => rfl
      | cons b t =>
        have hb : b ≠ slash := by
          have hhead := List.head?_dropWhile_not (· = slash) s
          rw [hd] at hhead
          simpa using hhead
        rw [squeeze_cons_of_ne hb, List.dropWhile_cons_of_neg (by simpa using hb)]
    · rw [squeeze_cons_of_ne ha, List.dropWhile_cons_of_neg (by simpa using ha),
        List.dropWhile_cons_of_neg (by simpa using ha), squeeze_cons_of_ne ha]

/-- Squeezing makes no string longer, so that it never overflows a length that fits. -/
theorem length_squeeze_le : ∀ s : Bytes, (squeeze s).length ≤ s.length
  | [] => by simp
  | [a] => by simp
  | a :: b :: s => by
    have ih := length_squeeze_le (b :: s)
    rw [squeeze]
    split_ifs
    · exact ih.trans (Nat.le_succ _)
    · exact Nat.succ_le_succ ih

/-- A squeezed string without its last letter is squeezed. -/
theorem squeeze_of_concat {a : Byte} : ∀ {s : Bytes}, squeeze (s ++ [a]) = s ++ [a] → squeeze s = s
  | [], _ => squeeze_nil
  | [b], _ => squeeze_singleton b
  | b :: c :: s, h => by
    rw [List.cons_append, List.cons_append, squeeze] at h
    split_ifs at h with hbc
    · have hlen := length_squeeze_le (c :: (s ++ [a]))
      rw [h, List.length_cons] at hlen
      omega
    · rw [squeeze, if_neg hbc, squeeze_of_concat (List.cons.inj h).2]

/-- Squeezing keeps the last letter. -/
theorem getLast?_squeeze : ∀ s : Bytes, (squeeze s).getLast? = s.getLast?
  | [] => by simp
  | [a] => by simp
  | a :: b :: s => by
    have ih := getLast?_squeeze (b :: s)
    rw [squeeze]
    split_ifs with h
    · rw [ih, List.getLast?_cons_cons]
    · obtain ⟨u, hu⟩ := exists_squeeze_cons b s
      rw [hu] at ih ⊢
      rw [List.getLast?_cons_cons, ih, List.getLast?_cons_cons]

/-- Squeezing keeps the first letter: what begins with a slash still does. -/
theorem head?_squeeze (s : Bytes) : (squeeze s).head? = s.head? := by
  cases s with
  | nil => simp
  | cons a s =>
    obtain ⟨u, hu⟩ := exists_squeeze_cons a s
    rw [hu, List.head?_cons, List.head?_cons]

/-! ## The last component -/

/-- No last separator, no separator. -/
theorem splitLast_eq_none {sep : Byte} : ∀ {s : Bytes}, splitLast sep s = none → sep ∉ s
  | [], _ => List.not_mem_nil
  | a :: s, h => by
    rw [splitLast] at h
    cases hs : splitLast sep s with
    | none =>
      rw [hs] at h
      have hne : ¬ a = sep := fun heq => by simp [heq] at h
      have htail := splitLast_eq_none hs
      simp [Ne.symm hne, htail]
    | some parts =>
      rw [hs] at h
      cases h

/-- After the last separator there is none. -/
theorem splitLast_eq_some {sep : Byte} : ∀ {s d f : Bytes}, splitLast sep s = some (d, f) → sep ∉ f
  | a :: s, d, f, h => by
    rw [splitLast] at h
    cases hs : splitLast sep s with
    | none =>
      rw [hs] at h
      dsimp only at h
      split_ifs at h
      cases h
      exact splitLast_eq_none hs
    | some parts =>
      rw [hs] at h
      cases h
      exact splitLast_eq_some hs

theorem Path.slash_notMem_notdir (p : Path) : slash ∉ p.notdir := by
  unfold notdir
  cases hsplit : splitLast slash p.str with
  | none => exact splitLast_eq_none hsplit
  | some parts => exact splitLast_eq_some hsplit

/-- What holds no slash is appended as it is. -/
theorem squeeze_append_of_notMem {t : Bytes} (ht : slash ∉ t) :
    ∀ s : Bytes, squeeze (s ++ t) = squeeze s ++ t
  | [] => by rw [squeeze_nil, List.nil_append, squeeze_of_notMem ht]
  | [a] => by
    cases t with
    | nil => simp
    | cons b t =>
      have hb : ¬ b = slash := fun heq => ht (heq ▸ List.mem_cons_self)
      have hrest : squeeze (b :: t) = b :: t := squeeze_of_notMem ht
      rw [List.singleton_append, squeeze, if_neg fun hab => hb hab.2, hrest, squeeze_singleton]
      rfl
  | a :: b :: s => by
    have ih := squeeze_append_of_notMem ht (b :: s)
    rw [List.cons_append, List.cons_append, squeeze, squeeze]
    split_ifs
    · exact ih
    · rw [List.cons_append, ← ih, List.cons_append]

end Webserv
