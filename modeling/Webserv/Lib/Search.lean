import Mathlib.Data.List.Basic
import Mathlib.Data.List.Infix
import Mathlib.Data.Nat.Find

/-!
# First occurrence of a needle in a list

`findSub w l` is the first index at which the list `w` occurs in `l`, as `std::search` finds it.

* `findSub_eq_some_iff`, `findSub_eq_none_iff`: what it means to be found, and not to be.
* `findSub_append`: an occurrence stays the first one when the list grows.
* `lt_add_of_findSub_append`: an occurrence that was not there before ends in the part that was added.
* `findSub_pair_of_append`, `append_pair_inj`, `flatMap_pair_inj`: lists that are cut at a needle of two
  letters.
* `findSub_map`: a map that keeps the letters of the needle apart from all others moves no occurrence.

## Why lists that grow

A reader that waits for a line end searches its buffer again after every read.  What it needs is that the
answer does not depend on how much of the later bytes are there: an occurrence that was found stays where it
is, and one that was not there yet is not before the seam by more than the needle is long.  Both follow from
the characterisation of the first occurrence by prefixes of the rest of the list.

## Why needles of two letters

The lines of a protocol end with two letters that are different, and a line may well contain either of them.
For such a needle an occurrence in `l ++ [a, b] ++ x` that begins in `l` lies in `l`: the two letters being
different, the needle cannot overlap itself.  This is what makes a text that is cut at its line ends
readable in one way only, and it fails for a needle of two equal letters.
-/

namespace Search

variable {α : Type*} [DecidableEq α]

/-- The first index at which `w` occurs in the list. -/
def findSub (w : List α) : List α → Option ℕ
  | [] => if w = [] then some 0 else none
  | a :: l => if w.isPrefixOf (a :: l) then some 0 else (findSub w l).map (· + 1)

/-- What it means for `i` to be the first occurrence. -/
theorem findSub_eq_some_iff {w : List α} : ∀ {l : List α} {i : ℕ},
    findSub w l = some i ↔
      i ≤ l.length ∧ w <+: l.drop i ∧ ∀ j < i, ¬ w <+: l.drop j
  | [], i => by
    by_cases hw : w = []
    · subst hw
      simp only [findSub, if_true, Option.some.injEq, List.length_nil, Nat.le_zero]
      constructor
      · rintro rfl
        simp
      · exact fun h => h.1.symm
    · simp only [findSub, if_neg hw, List.drop_nil, List.prefix_nil, reduceCtorEq, false_iff]
      exact fun h => hw h.2.1
  | a :: l, i => by
    rw [findSub]
    by_cases hp : w <+: a :: l
    · rw [if_pos (List.isPrefixOf_iff_prefix.mpr hp), Option.some.injEq]
      constructor
      · rintro rfl
        exact ⟨Nat.zero_le _, by simpa using hp, fun j hj => absurd hj (Nat.not_lt_zero j)⟩
      · rintro ⟨-, -, hmin⟩
        by_contra hi
        exact hmin 0 (by omega) (by simpa using hp)
    · rw [if_neg (fun h => hp (List.isPrefixOf_iff_prefix.mp h))]
      cases i with
      | zero =>
        have hmap : (findSub w l).map (· + 1) ≠ some 0 := by
          rw [Ne, Option.map_eq_some_iff]
          exact fun ⟨j, _, hj⟩ => absurd hj (Nat.succ_ne_zero j)
        exact iff_of_false hmap fun h => hp (by simpa using h.2.1)
      | succ i =>
        have ih : findSub w l = some i ↔ _ := findSub_eq_some_iff
        have hmap : (findSub w l).map (· + 1) = some (i + 1) ↔ findSub w l = some i := by
          rw [Option.map_eq_some_iff]
          constructor
          · rintro ⟨j, hj, hji⟩
            rw [hj, Nat.succ.inj hji]
          · exact fun h => ⟨i, h, rfl⟩
        rw [hmap, ih, List.length_cons, List.drop_succ_cons]
        constructor
        · rintro ⟨hle, hpre, hmin⟩
          refine ⟨by omega, hpre, fun j hj => ?_⟩
          cases j with
          | zero => simpa using hp
          | succ j => simpa using hmin j (by omega)
        · rintro ⟨hle, hpre, hmin⟩
          exact ⟨by omega, hpre, fun j hj => by simpa using hmin (j + 1) (by omega)⟩

/-- The needle does not occur. -/
theorem findSub_eq_none_iff {w l : List α} : findSub w l = none ↔ ¬ w <:+: l := by
  constructor
  · intro h hin
    obtain ⟨s, t, rfl⟩ := hin
    -- the first of all occurrences would be found
    have hex : ∃ i, w <+: (s ++ w ++ t).drop i := by
      refine ⟨s.length, ?_⟩
      rw [List.append_assoc, List.drop_left]
      exact List.prefix_append w t
    classical
    have hspec := Nat.find_spec hex
    have hle : Nat.find hex ≤ (s ++ w ++ t).length := by
      have hocc : w <+: (s ++ w ++ t).drop s.length := by
        rw [List.append_assoc, List.drop_left]
        exact List.prefix_append w t
      exact le_trans (Nat.find_min' hex hocc) (by simp)
    have hsome : findSub w (s ++ w ++ t) = some (Nat.find hex) :=
      findSub_eq_some_iff.mpr ⟨hle, hspec, fun j hj => Nat.find_min hex hj⟩
    rw [h] at hsome
    exact absurd hsome (by simp)
  · intro h
    cases hf : findSub w l with
    | none => rfl
    | some i =>
      obtain ⟨-, hpre, -⟩ := findSub_eq_some_iff.mp hf
      exact absurd (hpre.isInfix.trans (List.drop_suffix i l).isInfix) h

/-- The needle lies inside the list. -/
theorem add_le_of_findSub {w l : List α} {i : ℕ} (h : findSub w l = some i) :
    i + w.length ≤ l.length := by
  obtain ⟨hle, hpre, -⟩ := findSub_eq_some_iff.mp h
  have := hpre.length_le
  rw [List.length_drop] at this
  omega

/-- Around the first occurrence. -/
theorem eq_take_append_of_findSub {w l : List α} {i : ℕ} (h : findSub w l = some i) :
    l = l.take i ++ (w ++ l.drop (i + w.length)) := by
  obtain ⟨-, hpre, -⟩ := findSub_eq_some_iff.mp h
  obtain ⟨t, ht⟩ := hpre
  have hdrop : l.drop (i + w.length) = t := by
    rw [← List.drop_drop, ← ht, List.drop_left]
  rw [hdrop, ht, List.take_append_drop]

omit [DecidableEq α] in
/-- An occurrence in a prefix of the list is an occurrence in the list. -/
theorem prefix_drop_append {w l : List α} (x : List α) {j : ℕ} (hj : j ≤ l.length)
    (h : w <+: l.drop j) : w <+: (l ++ x).drop j := by
  rw [List.drop_append_of_le_length hj]
  exact h.trans (List.prefix_append _ _)

omit [DecidableEq α] in
/-- An occurrence that lies inside the prefix is one of the prefix. -/
theorem prefix_drop_of_append {w l : List α} {x : List α} {j : ℕ} (hj : j + w.length ≤ l.length)
    (h : w <+: (l ++ x).drop j) : w <+: l.drop j := by
  rw [List.drop_append_of_le_length (by omega)] at h
  have hlen : w.length ≤ (l.drop j).length := by rw [List.length_drop]; omega
  exact List.prefix_of_prefix_length_le h (List.prefix_append _ _) hlen

/-- **The first occurrence stays the first one when the list grows**: what comes later cannot make an
earlier one. -/
theorem findSub_append {w l : List α} (x : List α) {i : ℕ} (h : findSub w l = some i) :
    findSub w (l ++ x) = some i := by
  have hin := add_le_of_findSub h
  obtain ⟨hle, hpre, hmin⟩ := findSub_eq_some_iff.mp h
  refine findSub_eq_some_iff.mpr ⟨by rw [List.length_append]; omega,
    prefix_drop_append x hle hpre, fun j hj hj' => hmin j hj ?_⟩
  exact prefix_drop_of_append (by omega) hj'

/-- An occurrence that was not there before ends in the part that was added. -/
theorem lt_add_of_findSub_append {w l x : List α} {i : ℕ} (h : findSub w l = none)
    (hx : findSub w (l ++ x) = some i) : l.length < i + w.length := by
  by_contra hlt
  obtain ⟨-, hpre, -⟩ := findSub_eq_some_iff.mp hx
  have hin := prefix_drop_of_append (by omega) hpre
  exact findSub_eq_none_iff.mp h (hin.isInfix.trans (List.drop_suffix i l).isInfix)

/-- Nothing before the first occurrence contains the needle. -/
theorem findSub_take {w l : List α} {i : ℕ} (hw : w ≠ []) (h : findSub w l = some i) :
    findSub w (l.take i) = none := by
  rw [findSub_eq_none_iff]
  rintro ⟨s, t, hst⟩
  obtain ⟨-, -, hmin⟩ := findSub_eq_some_iff.mp h
  have hwpos : 0 < w.length := List.length_pos_iff.mpr hw
  have hlen := congrArg List.length hst
  simp only [List.length_append, List.length_take] at hlen
  refine hmin s.length (by omega) ?_
  have hl : l = s ++ (w ++ (t ++ l.drop i)) := by
    conv_lhs => rw [← List.take_append_drop i l, ← hst]
    simp only [List.append_assoc]
  rw [hl, List.drop_left]
  exact List.prefix_append _ _

/-! ## Needles of one letter -/

section Letter

variable {c : α}

theorem findSub_singleton_eq_none {l : List α} (h : c ∉ l) : findSub [c] l = none := by
  rw [findSub_eq_none_iff]
  exact fun hmem => h (hmem.subset (List.mem_singleton.mpr rfl))

theorem findSub_singleton_append {l : List α} (h : c ∉ l) (x : List α) :
    findSub [c] (l ++ c :: x) = some l.length := by
  refine findSub_eq_some_iff.mpr ⟨by simp, ?_, fun j hj hprefix => h ?_⟩
  · rw [List.drop_left]
    exact ⟨x, rfl⟩
  · rw [List.drop_append_of_le_length (by omega)] at hprefix
    match hdrop : l.drop j with
    | [] =>
      have hlength := congrArg List.length hdrop
      rw [List.length_drop, List.length_nil] at hlength
      omega
    | d :: t =>
      rw [hdrop] at hprefix
      have hd : c = d := (List.cons_prefix_cons.mp hprefix).1
      exact List.mem_of_mem_drop (i := j) (by rw [hdrop, hd]; exact List.mem_cons_self)

/-- A list is cut at a letter in one way. -/
theorem append_cons_inj {l l' x x' : List α} (hl : c ∉ l) (hl' : c ∉ l') (h : l ++ c :: x = l' ++ c :: x') :
    l = l' ∧ x = x' := by
  have hfind := findSub_singleton_append hl x
  rw [h, findSub_singleton_append hl' x'] at hfind
  obtain ⟨hleft, hright⟩ := List.append_inj h (Option.some.inj hfind).symm
  exact ⟨hleft, (List.cons.inj hright).2⟩

end Letter

/-! ## Needles of two letters -/

section Pair

variable {a b : α}

/-- A list is followed by a needle of two different letters that it does not contain. -/
theorem findSub_append_pair (hne : a ≠ b) {l : List α} (h : ¬ [a, b] <:+: l) (x : List α) :
    findSub [a, b] (l ++ ([a, b] ++ x)) = some l.length := by
  refine findSub_eq_some_iff.mpr ⟨by simp, ?_, fun j hj hprefix => ?_⟩
  · rw [List.drop_left]
    exact List.prefix_append _ _
  · rw [List.drop_append_of_le_length (by omega)] at hprefix
    match hdrop : l.drop j with
    | [] =>
      have hlength := congrArg List.length hdrop
      rw [List.length_drop, List.length_nil] at hlength
      omega
    | [c] =>
      -- the needle would begin with its own second letter
      rw [hdrop] at hprefix
      obtain ⟨-, htail⟩ := List.cons_prefix_cons.mp hprefix
      exact hne (List.cons_prefix_cons.mp htail).1.symm
    | c :: d :: t =>
      rw [hdrop] at hprefix
      obtain ⟨rfl, htail⟩ := List.cons_prefix_cons.mp hprefix
      obtain ⟨rfl, -⟩ := List.cons_prefix_cons.mp htail
      have hinfix : [a, b] <:+: l.drop j := by
        rw [hdrop]
        exact ⟨[], t, rfl⟩
      exact h ( hinfix.trans (List.drop_suffix j l).isInfix)

/-- A part of such a list does not contain the needle. -/
theorem findSub_of_prefix_pair (hne : a ≠ b) {l p : List α} (h : ¬ [a, b] <:+: l)
    ( hprefix : p <+: l ++ [a, b]) (hlt : p.length < l.length + 2) : findSub [a, b] p = none := by
  cases hfind : findSub [a, b] p with
  | none => rfl
  | some i =>
    obtain ⟨t, ht⟩ := hprefix
    have hmore := findSub_append t hfind
    have hfirst := findSub_append_pair hne h []
    rw [List.append_nil] at hfirst
    rw [ht, hfirst] at hmore
    have hin : i + 2 ≤ p.length := add_le_of_findSub hfind
    have : l.length = i := Option.some.inj hmore
    omega

/-- Such a list arrives in parts: the needle is not there yet, or it is found behind the list. -/
theorem findSub_pair_of_append (hne : a ≠ b) {l p future x : List α} (h : ¬ [a, b] <:+: l)
    (hp : p ++ future = l ++ ([a, b] ++ x)) :
    (findSub [a, b] p = none ∧ future ≠ []) ∨
      ∃ q, p = l ++ ([a, b] ++ q) ∧ q ++ future = x ∧ findSub [a, b] p = some l.length := by
  have hp' : p ++ future = (l ++ [a, b]) ++ x := by rw [hp, List.append_assoc]
  by_cases hlt : p.length < l.length + 2
  · refine Or.inl ⟨findSub_of_prefix_pair hne h ?_ hlt, ?_⟩
    · refine List.prefix_of_prefix_length_le (List.prefix_append p future) ?_ ?_
      · rw [hp']
        exact List.prefix_append _ _
      · rw [List.length_append]
        exact hlt.le
    · rintro rfl
      have hlength := congrArg List.length hp
      simp only [List.length_append, List.length_cons, List.length_nil] at hlength
      omega
  · refine Or.inr ?_
    obtain ⟨q, rfl⟩ : l ++ [a, b] <+: p := by
      refine List.prefix_of_prefix_length_le ?_ (List.prefix_append p future) ?_
      · rw [hp']
        exact List.prefix_append _ _
      · rw [List.length_append]
        exact not_lt.mp hlt
    rw [List.append_assoc] at hp'
    refine ⟨q, List.append_assoc .., List.append_cancel_left hp', ?_⟩
    rw [List.append_assoc]
    exact findSub_append_pair hne h q

/-- A list is cut at the first occurrence of such a needle in one way. -/
theorem append_pair_inj (hne : a ≠ b) {l l' x x' : List α} (hl : ¬ [a, b] <:+: l)
    (hl' : ¬ [a, b] <:+: l') (h : l ++ ([a, b] ++ x) = l' ++ ([a, b] ++ x')) : l = l' ∧ x = x' := by
  have hfind := findSub_append_pair hne hl x
  rw [h, findSub_append_pair hne hl' x'] at hfind
  obtain ⟨hleft, hright⟩ := List.append_inj h (Option.some.inj hfind).symm
  exact ⟨hleft, List.append_cancel_left hright⟩

/-- Lists that each end with such a needle, up to the first empty one, are read back in one way. -/
theorem flatMap_pair_inj (hne : a ≠ b) {x x' : List α} : ∀ {ls ls' : List (List α)},
    (∀ l ∈ ls, l ≠ [] ∧ ¬ [a, b] <:+: l) → (∀ l ∈ ls', l ≠ [] ∧ ¬ [a, b] <:+: l) →
    ls.flatMap (· ++ [a, b]) ++ ([a, b] ++ x) = ls'.flatMap (· ++ [a, b]) ++ ([a, b] ++ x') →
      ls = ls' ∧ x = x'
  | [], [], _, _, h => ⟨rfl, List.append_cancel_left h⟩
  | [], l' :: ls', _, h', h => by
    obtain ⟨hl', -⟩ := List.forall_mem_cons.mp h'
    rw [List.flatMap_cons, List.append_assoc, List.append_assoc] at h
    have hnil : ¬ [a, b] <:+: ([] : List α) := by simp
    exact absurd (append_pair_inj hne hnil hl'.2 h).1.symm hl'.1
  | l :: ls, [], h, _, heq => by
    obtain ⟨hl, -⟩ := List.forall_mem_cons.mp h
    rw [List.flatMap_cons, List.append_assoc, List.append_assoc] at heq
    have hnil : ¬ [a, b] <:+: ([] : List α) := by simp
    exact absurd (append_pair_inj hne hl.2 hnil heq).1 hl.1
  | l :: ls, l' :: ls', h, h', heq => by
    obtain ⟨hl, hls⟩ := List.forall_mem_cons.mp h
    obtain ⟨hl', hls'⟩ := List.forall_mem_cons.mp h'
    rw [List.flatMap_cons, List.flatMap_cons, List.append_assoc, List.append_assoc, List.append_assoc,
      List.append_assoc] at heq
    obtain ⟨rfl, hrest⟩ := append_pair_inj hne hl.2 hl'.2 heq
    obtain ⟨rfl, rfl⟩ := flatMap_pair_inj hne hls hls' hrest
    exact ⟨rfl, rfl⟩

omit [DecidableEq α] in
/-- A needle of two letters does not reach over a third one. -/
theorem infix_of_append_cons {c : α} (ha : a ≠ c) (hb : b ≠ c) {x : List α} :
    ∀ {l : List α}, [a, b] <:+: l ++ c :: x → [a, b] <:+: l ∨ [a, b] <:+: x
  | [], h => by
    rcases List.infix_cons_iff.mp h with hprefix | hinfix
    · exact absurd (List.cons_prefix_cons.mp hprefix).1 ha
    · exact Or.inr hinfix
  | d :: l, h => by
    rw [List.cons_append] at h
    rcases List.infix_cons_iff.mp h with hprefix | hinfix
    · obtain ⟨rfl, hsecond⟩ := List.cons_prefix_cons.mp hprefix
      cases l with
      | nil => exact absurd (List.cons_prefix_cons.mp hsecond).1 hb
      | cons e l =>
        obtain ⟨rfl, -⟩ := List.cons_prefix_cons.mp hsecond
        exact Or.inl (List.prefix_append [a, b] l).isInfix
    · rcases infix_of_append_cons ha hb hinfix with hleft | hright
      · exact Or.inl (hleft.trans (List.suffix_cons ..).isInfix)
      · exact Or.inr hright

end Pair

/-! ## Mapped lists -/

omit [DecidableEq α] in
theorem prefix_map_iff {f : α → α} {w : List α} (hf : ∀ b ∈ w, ∀ a, f a = b ↔ a = b) {l : List α} :
    w <+: l.map f ↔ w <+: l := by
  induction w generalizing l with
  | nil => simp
  | cons b w ih =>
    cases l with
    | nil => rfl
    | cons a l =>
      rw [List.map_cons, List.cons_prefix_cons, List.cons_prefix_cons,
        ih fun b hb => hf b (List.mem_cons_of_mem _ hb), eq_comm, hf b List.mem_cons_self, eq_comm]

/-- A map that keeps the letters of the needle apart from all others moves no occurrence. -/
theorem findSub_map {f : α → α} {w : List α} (hf : ∀ b ∈ w, ∀ a, f a = b ↔ a = b) (l : List α) :
    findSub w (l.map f) = findSub w l := by
  induction l with
  | nil => rfl
  | cons a l ih =>
    have hprefix : w.isPrefixOf (f a :: l.map f) = w.isPrefixOf (a :: l) := by
      rw [Bool.eq_iff_iff, List.isPrefixOf_iff_prefix, List.isPrefixOf_iff_prefix, ← List.map_cons,
        prefix_map_iff hf]
    rw [List.map_cons, findSub, findSub, hprefix, ih]

end Search
