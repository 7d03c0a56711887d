import Mathlib.Data.List.Basic
import Mathlib.Data.List.Infix

/-!
# Lexical paths

A path is a list of letters cut into components by a separator.  Repeated separators count once, so the
components are the non-empty pieces.  Two component names are special: `.` stays where it is and `..` goes
up.  Nothing here looks at a file system.

* `components`: the non-empty pieces, with `components_append_cons`: a separator cuts a path in two.
* `components_left`, `components_right`: where the components of one part are known, so are those of the
  other.
* `rooted`: each component after a separator, the shortest list with these components that begins with one.
* `resolve`: the components after `.` and `..` have been carried out, with a stack, `..` on an empty stack
  staying where it is.
* `NeverClimbs`: at no point of the list do the `..` outnumber the ordinary components before.
* `resolve_append_of_neverClimbs`: a list that never climbs, walked from a directory, ends inside it.

## Why the seam needs lemmas

Programs make paths by appending strings, and the components of `u ++ v` are not those of `u` followed by
those of `v`: where no separator is at the seam, the last piece of one and the first piece of the other
become one component.  `components_append` says exactly this, with both pieces possibly empty.  The other
lemmas are the cases in which the seam does no harm.

## Why climbing is counted and not resolved

`NeverClimbs` is a test on the list itself, with a counter, and it is decidable.  It asks more than that the
walk ends inside the directory: `..` followed by the name of the directory ends inside too, but only where
that name is known.  A list that passes the test stays inside whatever directory it starts from.
-/

namespace LexicalPath

variable {α : Type*} [DecidableEq α]

/-! ## Components -/

/-- The pieces between separators, empty ones included, so that the list can be put together again. -/
def segments (sep : α) : List α → List (List α)
  | [] => [[]]
  | a :: l =>
    if a = sep then [] :: segments sep l
    else (a :: (segments sep l).headD []) :: (segments sep l).tail

/-- The non-empty pieces between separators, so that repeated separators count as one. -/
def components (sep : α) (l : List α) : List (List α) := (segments sep l).filter (· ≠ [])

/-- There is a first piece, if only an empty one. -/
theorem segments_ne_nil (sep : α) : ∀ l : List α, segments sep l ≠ []
  | [] => by simp [segments]
  | a :: l => by rw [segments]; split <;> simp

/-- A separator cuts a path in two. -/
theorem segments_append_cons (sep : α) (t : List α) :
    ∀ s : List α, segments sep (s ++ sep :: t) = segments sep s ++ segments sep t
  | [] => by simp [segments]
  | a :: s => by
    rw [List.cons_append, segments, segments, segments_append_cons sep t s]
    by_cases ha : a = sep
    · simp [ha]
    · rw [if_neg ha, if_neg ha]
      cases hs : segments sep s with
      | nil => exact absurd hs (segments_ne_nil sep s)
      | cons c cs => simp

@[simp] theorem components_nil (sep : α) : components sep ([] : List α) = [] := by
  simp [components, segments]

/-- The components on both sides of a separator have nothing to do with each other. -/
theorem components_append_cons (sep : α) (s t : List α) :
    components sep (s ++ sep :: t) = components sep s ++ components sep t := by
  rw [components, segments_append_cons, List.filter_append]
  rfl

@[simp] theorem components_cons_sep (sep : α) (t : List α) :
    components sep (sep :: t) = components sep t := by
  simpa using components_append_cons sep [] t

/-- A separator at the end adds no component. -/
theorem components_concat_sep (sep : α) (s : List α) :
    components sep (s ++ [sep]) = components sep s := by
  simpa using components_append_cons sep s []

/-- No component holds a separator. -/
theorem sep_notMem_segments (sep : α) : ∀ (l : List α), ∀ c ∈ segments sep l, sep ∉ c
  | [] => by simp [segments]
  | a :: l => by
    have ih := sep_notMem_segments sep l
    rw [segments]
    split
    · simpa using ih
    · rename_i ha
      cases hs : segments sep l with
      | nil => exact absurd hs (segments_ne_nil sep l)
      | cons d ds =>
        rw [hs] at ih
        intro c hc
        rcases List.mem_cons.mp hc with rfl | hc
        · simp only [List.headD_cons, List.mem_cons, not_or]
          exact ⟨fun h => ha h.symm, ih d (List.mem_cons_self ..)⟩
        · exact ih c (List.mem_cons_of_mem _ hc)

/-- Without a separator there is one piece. -/
theorem segments_of_notMem {sep : α} : ∀ {l : List α}, sep ∉ l → segments sep l = [l]
  | [], _ => rfl
  | a :: l, h => by
    rw [List.mem_cons, not_or] at h
    rw [segments, if_neg (fun ha => h.1 ha.symm), segments_of_notMem h.2]
    rfl

/-- A piece as a list of components: itself, unless it is empty. -/
def piece (w : List α) : List (List α) := if w = [] then [] else [w]

theorem components_of_notMem {sep : α} {w : List α} (hw : sep ∉ w) : components sep w = piece w := by
  rw [components, segments_of_notMem hw, piece]
  by_cases hnil : w = []
  · simp [hnil]
  · simp [hnil]

/-- What follows a piece: nothing, or a separator.  The piece ends there in either case. -/
def Starts (sep : α) (t : List α) : Prop := t = [] ∨ ∃ t', t = sep :: t'

/-- What a piece follows: nothing, or a separator.  The piece begins there in either case. -/
def Ends (sep : α) (s : List α) : Prop := s = [] ∨ ∃ s', s = s' ++ [sep]

/-- A piece between two parts.  It is one component, provided that the parts end and start with the
separator. -/
theorem components_append_piece {sep : α} {s w t : List α} (hs : Ends sep s) (hw : sep ∉ w)
    (ht : Starts sep t) :
    components sep (s ++ (w ++ t)) = components sep s ++ (piece w ++ components sep t) := by
  have htail : components sep (w ++ t) = piece w ++ components sep t := by
    rcases ht with rfl | ⟨t', rfl⟩
    · rw [List.append_nil, components_of_notMem hw, components_nil, List.append_nil]
    · rw [components_append_cons, components_of_notMem hw, components_cons_sep]
  rcases hs with rfl | ⟨s', rfl⟩
  · rw [List.nil_append, htail, components_nil, List.nil_append]
  · rw [List.append_assoc, List.singleton_append, components_append_cons, components_concat_sep, htail]

/-- The first piece of a list, and the rest. -/
theorem exists_first_piece (sep : α) (l : List α) : ∃ w t, l = w ++ t ∧ sep ∉ w ∧ Starts sep t := by
  by_cases h : sep ∈ l
  · obtain ⟨w, t, rfl, hw⟩ := List.eq_append_cons_of_mem h
    exact ⟨w, sep :: t, rfl, hw, Or.inr ⟨t, rfl⟩⟩
  · exact ⟨l, [], (List.append_nil l).symm, h, Or.inl rfl⟩

/-- The last piece of a list, and what is before it. -/
theorem exists_last_piece (sep : α) (l : List α) : ∃ s w, l = s ++ w ∧ sep ∉ w ∧ Ends sep s := by
  obtain ⟨w, t, hl, hw, ht⟩ := exists_first_piece sep l.reverse
  refine ⟨t.reverse, w.reverse, ?_, by rwa [List.mem_reverse], ?_⟩
  · rw [← List.reverse_append, ← hl, List.reverse_reverse]
  · rcases ht with rfl | ⟨t', rfl⟩
    · exact Or.inl rfl
    · exact Or.inr ⟨t'.reverse, List.reverse_cons⟩

/-- Where two lists meet, the last piece of one and the first piece of the other become one. -/
theorem components_append (sep : α) (u v : List α) :
    ∃ cs y w ds, components sep u = cs ++ piece y ∧ components sep v = piece w ++ ds ∧
      components sep (u ++ v) = cs ++ (piece (y ++ w) ++ ds) := by
  obtain ⟨s, y, rfl, hy, hs⟩ := exists_last_piece sep u
  obtain ⟨w, t, rfl, hw, ht⟩ := exists_first_piece sep v
  have hyw : sep ∉ y ++ w := fun hmem => (List.mem_append.mp hmem).elim hy hw
  refine ⟨components sep s, y, w, components sep t, ?_, ?_, ?_⟩
  · simpa using components_append_piece hs hy (Or.inl rfl)
  · simpa using @components_append_piece _ _ sep [] w t (Or.inl rfl) hw ht
  · rw [← components_append_piece hs hyw ht]
    simp only [List.append_assoc]

/-- When the right part has its components to itself, so has the left part. -/
theorem components_left {sep : α} {u v : List α} {cs : List (List α)}
    (h : components sep (u ++ v) = cs ++ components sep v) : components sep u = cs := by
  obtain ⟨before, y, w, after, hu, hv, huv⟩ := components_append sep u v
  rw [huv, hv, ← List.append_assoc, ← List.append_assoc] at h
  have hcut := List.append_cancel_right h
  rw [hu]
  by_cases hnil : w = []
  · rw [hnil, List.append_nil] at hcut
    simpa [piece] using hcut
  · -- the piece on the border belongs to the right part
    have hne : y ++ w ≠ [] := fun heq => hnil (List.append_eq_nil_iff.mp heq).2
    rw [piece, piece, if_neg hne, if_neg hnil] at hcut
    obtain ⟨hcs, hlast⟩ := List.append_inj' hcut rfl
    have hy : y = [] := List.append_left_eq_self.mp (List.cons.inj hlast).1
    rw [hy, piece, if_pos rfl, List.append_nil]
    exact hcs

/-- When the left part has its components to itself, so has the right part. -/
theorem components_right {sep : α} {u v : List α} {ds : List (List α)}
    (h : components sep (u ++ v) = components sep u ++ ds) : components sep v = ds := by
  obtain ⟨before, y, w, after, hu, hv, huv⟩ := components_append sep u v
  rw [huv, hu, List.append_assoc] at h
  have hcut := List.append_cancel_left h
  rw [hv]
  by_cases hnil : y = []
  · rw [hnil, List.nil_append] at hcut
    simpa [piece] using hcut
  · -- the piece on the border belongs to the left part
    have hne : y ++ w ≠ [] := fun heq => hnil (List.append_eq_nil_iff.mp heq).1
    rw [piece, piece, if_neg hne, if_neg hnil, List.singleton_append, List.singleton_append] at hcut
    obtain ⟨hlast, hrest⟩ := List.cons.inj hcut
    have hw : w = [] := List.append_right_eq_self.mp hlast
    rw [hw, piece, if_pos rfl, List.nil_append]
    exact hrest

/-! ## Rooted lists -/

/-- Each component after a separator: the absolute path of these components. -/
def rooted (sep : α) (cs : List (List α)) : List α := cs.flatMap (sep :: ·)

omit [DecidableEq α] in
theorem rooted_append (sep : α) (cs ds : List (List α)) :
    rooted sep (cs ++ ds) = rooted sep cs ++ rooted sep ds :=
  List.flatMap_append

/-- A component has a letter, and none of its letters is a separator. -/
theorem mem_components {sep : α} {l c : List α} (hc : c ∈ components sep l) : sep ∉ c ∧ c ≠ [] := by
  obtain ⟨hmem, hne⟩ := List.mem_filter.mp hc
  exact ⟨sep_notMem_segments sep l c hmem, of_decide_eq_true hne⟩

/-- The rooted list has the components that it was made of. -/
theorem components_rooted {sep : α} {cs : List (List α)} (hcs : ∀ c ∈ cs, sep ∉ c ∧ c ≠ []) :
    components sep (rooted sep cs) = cs := by
  induction cs with
  | nil => rfl
  | cons c cs ih =>
    obtain ⟨hsep, hne⟩ := hcs c List.mem_cons_self
    have hstarts : Starts sep (rooted sep cs) := by
      cases cs with
      | nil => exact Or.inl rfl
      | cons d cs => exact Or.inr ⟨_, rfl⟩
    have hcons := @components_append_piece _ _ sep [] c (rooted sep cs) (Or.inl rfl) hsep hstarts
    rw [List.nil_append, components_nil, List.nil_append, piece, if_neg hne,
      ih fun d hd => hcs d (List.mem_cons_of_mem _ hd)] at hcons
    show components sep (sep :: (c ++ rooted sep cs)) = _
    rw [components_cons_sep, hcons]
    rfl

omit [DecidableEq α] in
/-- The components with separators between them. -/
theorem rooted_eq_cons_intercalate (sep : α) {cs : List (List α)} (hne : cs ≠ []) :
    rooted sep cs = sep :: List.intercalate [sep] cs := by
  induction cs with
  | nil => exact absurd rfl hne
  | cons c cs ih =>
    cases cs with
    | nil => simp [rooted, List.intercalate]
    | cons d cs =>
      show sep :: (c ++ rooted sep (d :: cs)) = _
      rw [ih (List.cons_ne_nil _ _)]
      simp [List.intercalate]

/-- A list that begins with a separator is at least as long as its components each after one, and equal to
them when it is as long. -/
theorem rooted_components {sep : α} {l : List α} (hl : Starts sep l) :
    (rooted sep (components sep l)).length ≤ l.length ∧
      (l.length ≤ (rooted sep (components sep l)).length → l = rooted sep (components sep l)) := by
  induction hn : l.length using Nat.strong_induction_on generalizing l with
  | _ n ih =>
    subst hn
    rcases hl with rfl | ⟨l, rfl⟩
    · exact ⟨Nat.le_refl _, fun _ => rfl⟩
    · obtain ⟨w, t, rfl, hw, ht⟩ := exists_first_piece sep l
      have hcomponents := @components_append_piece _ _ sep [] w t (Or.inl rfl) hw ht
      rw [components_nil, List.nil_append, List.nil_append] at hcomponents
      have hlt : t.length < (sep :: (w ++ t)).length := by
        rw [List.length_cons, List.length_append]
        omega
      obtain ⟨hle, heq⟩ := ih t.length hlt ht rfl
      rw [components_cons_sep, hcomponents]
      by_cases hnil : w = []
      · -- a repeated separator
        subst hnil
        rw [piece, if_pos rfl, List.nil_append, List.nil_append, List.length_cons]
        exact ⟨by omega, fun hge => by omega⟩
      · rw [piece, if_neg hnil, rooted_append]
        have hpiece : rooted sep [w] = sep :: w := by simp [rooted]
        rw [hpiece, List.length_append, List.length_cons, List.length_cons, List.length_append]
        refine ⟨by omega, fun hge => ?_⟩
        have hrest := heq (by omega)
        conv_lhs => rw [hrest]
        rfl

/-! ## Resolution -/

variable (dot : α)

/-- One component walked on the stack of directories, the deepest first. -/
def walk (stack : List (List α)) (c : List α) : List (List α) :=
  if c = [dot] then stack else if c = [dot, dot] then stack.tail else c :: stack

/-- The components after `.` and `..` have been carried out, from the top directory down. -/
def resolve (cs : List (List α)) : List (List α) := (cs.foldl (walk dot) []).reverse

/-- Whether, walking the list from a directory `depth` levels below the top, one never goes above
the top. -/
def climbFree : ℕ → List (List α) → Bool
  | _, [] => true
  | depth, c :: cs =>
    if c = [dot] then climbFree depth cs
    else if c = [dot, dot] then 0 < depth && climbFree (depth - 1) cs
    else climbFree (depth + 1) cs

/-- At no point of the list do the `..` outnumber the ordinary components before. -/
def NeverClimbs (cs : List (List α)) : Prop := climbFree dot 0 cs = true

instance (cs : List (List α)) : Decidable (NeverClimbs dot cs) :=
  inferInstanceAs (Decidable (_ = true))

variable {dot}

/-- Walking a list that stays below the top of `inner` leaves what is under `inner` alone. -/
theorem foldl_walk_of_climbFree (base : List (List α)) :
    ∀ (cs inner : List (List α)), climbFree dot inner.length cs = true →
      ∃ inner', cs.foldl (walk dot) (inner ++ base) = inner' ++ base
  | [], inner, _ => ⟨inner, rfl⟩
  | c :: cs, inner, h => by
    rw [climbFree] at h
    rw [List.foldl_cons, walk]
    by_cases h1 : c = [dot]
    · rw [if_pos h1] at h ⊢
      exact foldl_walk_of_climbFree base cs inner h
    · rw [if_neg h1] at h ⊢
      by_cases h2 : c = [dot, dot]
      · rw [if_pos h2] at h ⊢
        cases inner with
        | nil => simp at h
        | cons d inner => exact foldl_walk_of_climbFree base cs inner h
      · rw [if_neg h2] at h ⊢
        exact foldl_walk_of_climbFree base cs (c :: inner) h

/-- **A list that never climbs, walked from a directory, ends inside it.** -/
theorem resolve_append_of_neverClimbs {base cs : List (List α)} (h : NeverClimbs dot cs) :
    resolve dot base <+: resolve dot (base ++ cs) := by
  obtain ⟨inner, hin⟩ := foldl_walk_of_climbFree (base.foldl (walk dot) []) cs [] h
  rw [List.nil_append] at hin
  rw [resolve, resolve, List.foldl_append, hin, List.reverse_append]
  exact List.prefix_append _ _

end LexicalPath
