import Mathlib.Data.List.Basic
import Mathlib.Data.List.Infix

/-!
# The first longest prefix

A table is a list of entries with a key each, a list of letters.  `longest` walks the table and returns,
among the entries whose key is a prefix of the target, the first one with the longest key.

* `longest_eq_none_iff`, `longest_eq_some_iff`: what the walk finds.
* `isLongest_iff_split`: the place of what is found in the table.
* `longest_eq_iff`: the entry found for one target is found for another exactly when its key is a prefix of
  the other too and no longer key is.

## Why the keys of one length are one key

Among the prefixes of a target there is one of each length at most.  So two entries that match and are
equally long have the same key, and which of them is found is a matter of their order in the table and not
of the target.  `IsLongest` says it by its third clause: what is found is the first entry of the table with
that key.

## What the last theorem is for

A table may be asked twice for what should be the same thing, in two spellings.  `longest_eq_iff` tells when
the two answers are the same, by looking at the keys and the other spelling only: the key that was found has
to match it too, and nothing longer may.  Nothing has to be known of the entries that were not found, since
a key that is shorter cannot win.
-/

namespace LongestPrefix

variable {ι α : Type*} [DecidableEq α] (key : ι → List α) (target : List α)

/-- One entry of the walk: it replaces the selected one when it matches and is longer. -/
def pick (selected : Option ι) (x : ι) : Option ι :=
  if key x <+: target then
    match selected with
    | none => some x
    | some y => if (key y).length < (key x).length then some x else some y
  else selected

/-- The first entry with the longest key that is a prefix of the target. -/
def longest (table : List ι) : Option ι := table.foldl (pick key target) none

/-- What it means for an entry to be the first longest match of a table. -/
structure IsLongest (table : List ι) (x : ι) : Prop where
  isPrefix : key x <+: target
  maximal : ∀ y ∈ table, key y <+: target → (key y).length ≤ (key x).length
  isFirst : table.find? (fun y => key y = key x) = some x

variable {key target}

/-- An entry that does not match changes nothing. -/
theorem pick_eq_self {x : ι} (h : ¬ key x <+: target) (selected : Option ι) :
    pick key target selected x = selected :=
  if_neg h

/-- The first match is selected. -/
theorem pick_none {x : ι} (h : key x <+: target) : pick key target none x = some x := if_pos h

/-- A later match is selected when it is longer, and not when it is as long. -/
theorem pick_some {x : ι} (h : key x <+: target) (y : ι) :
    pick key target (some y) x = if (key y).length < (key x).length then some x else some y :=
  if_pos h

omit [DecidableEq α] in
/-- Two keys of one length that are prefixes of one target are equal. -/
theorem key_eq_of_length_eq {x y : ι} (hx : key x <+: target) (hy : key y <+: target)
    (h : (key x).length = (key y).length) : key x = key y :=
  (List.prefix_of_prefix_length_le hx hy h.le).eq_of_length h

/-- The state of the walk after a part of the table. -/
theorem foldl_pick (table : List ι) :
    match table.foldl (pick key target) none with
    | none => ∀ y ∈ table, ¬ key y <+: target
    | some x => IsLongest key target table x := by
  induction table using List.reverseRecOn with
  | nil => simp
  | append_singleton table a ih =>
    rw [List.foldl_append, List.foldl_cons, List.foldl_nil]
    revert ih
    cases table.foldl (pick key target) none with
    | none =>
      intro ih
      by_cases ha : key a <+: target
      · rw [pick_none ha]
        refine ⟨ha, fun y hy hpre => ?_, ?_⟩
        · rcases List.mem_append.mp hy with hy | hy
          · exact absurd hpre (ih y hy)
          · rw [List.mem_singleton.mp hy]
        · have hnone : table.find? (fun y => key y = key a) = none := by
            rw [List.find?_eq_none]
            intro y hy heq
            exact ih y hy (of_decide_eq_true heq ▸ ha)
          rw [List.find?_append, hnone]
          simp
      · rw [pick_eq_self ha]
        intro y hy
        rcases List.mem_append.mp hy with hy | hy
        · exact ih y hy
        · rw [List.mem_singleton.mp hy]
          exact ha
    | some x =>
      intro ih
      have hstay : (key a <+: target → (key a).length ≤ (key x).length) →
          IsLongest key target (table ++ [a]) x := by
        intro hle
        refine ⟨ih.isPrefix, fun y hy hpre => ?_, ?_⟩
        · rcases List.mem_append.mp hy with hy | hy
          · exact ih.maximal y hy hpre
          · rw [List.mem_singleton.mp hy] at hpre ⊢
            exact hle hpre
        · rw [List.find?_append, ih.isFirst]
          rfl
      by_cases ha : key a <+: target
      · rw [pick_some ha]
        by_cases hlt : (key x).length < (key a).length
        · rw [if_pos hlt]
          refine ⟨ha, fun y hy hpre => ?_, ?_⟩
          · rcases List.mem_append.mp hy with hy | hy
            · exact (ih.maximal y hy hpre).trans hlt.le
            · rw [List.mem_singleton.mp hy]
          · have hnone : table.find? (fun y => key y = key a) = none := by
              rw [List.find?_eq_none]
              intro y hy heq
              have hkey : key y = key a := of_decide_eq_true heq
              have hle := ih.maximal y hy (hkey ▸ ha)
              rw [hkey] at hle
              omega
            rw [List.find?_append, hnone]
            simp
        · rw [if_neg hlt]
          exact hstay fun _ => not_lt.mp hlt
      · rw [pick_eq_self ha]
        exact hstay fun hpre => absurd hpre ha

/-- An entry as long as the target stays selected. -/
theorem foldl_pick_of_length_eq {x : ι} (h : (key x).length = target.length) :
    ∀ table : List ι, table.foldl (pick key target) (some x) = some x
  | [] => rfl
  | y :: table => by
    have hstay : pick key target (some x) y = some x := by
      by_cases hy : key y <+: target
      · have hle := hy.length_le
        rw [pick_some hy, if_neg (by omega)]
      · exact pick_eq_self hy _
    rw [List.foldl_cons, hstay, foldl_pick_of_length_eq h table]

/-- Nothing is found when no key is a prefix. -/
theorem longest_eq_none_iff {table : List ι} :
    longest key target table = none ↔ ∀ y ∈ table, ¬ key y <+: target := by
  have hspec := @foldl_pick _ _ _ key target table
  rw [longest]
  cases h : table.foldl (pick key target) none with
  | none =>
    rw [h] at hspec
    exact iff_of_true rfl hspec
  | some x =>
    rw [h] at hspec
    refine iff_of_false (by simp) fun hnone => ?_
    exact hnone x (List.mem_of_find?_eq_some hspec.isFirst) hspec.isPrefix

/-- What is found is the first longest match.  With this the loop over the table need not be opened again. -/
theorem longest_eq_some_iff {table : List ι} {x : ι} :
    longest key target table = some x ↔ IsLongest key target table x := by
  have hspec := @foldl_pick _ _ _ key target table
  rw [longest]
  cases h : table.foldl (pick key target) none with
  | none =>
    rw [h] at hspec
    refine iff_of_false (by simp) fun hx => ?_
    exact hspec x (List.mem_of_find?_eq_some hx.isFirst) hx.isPrefix
  | some y =>
    rw [h] at hspec
    constructor
    · intro heq
      rw [← Option.some.inj heq]
      exact hspec
    · intro hx
      have hxy : (key x).length ≤ (key y).length :=
        hspec.maximal x (List.mem_of_find?_eq_some hx.isFirst) hx.isPrefix
      have hyx : (key y).length ≤ (key x).length :=
        hx.maximal y (List.mem_of_find?_eq_some hspec.isFirst) hspec.isPrefix
      have hkey : key y = key x :=
        key_eq_of_length_eq hspec.isPrefix hx.isPrefix (le_antisymm hyx hxy)
      have hfirst := hx.isFirst
      rw [← hkey, hspec.isFirst] at hfirst
      exact hfirst

/-- A longest match is longer than the matches before it, and no shorter than those behind it. -/
theorem isLongest_iff_split {table : List ι} {x : ι} :
    IsLongest key target table x ↔ ∃ before after, table = before ++ x :: after ∧ key x <+: target ∧
      (∀ y ∈ before, key y <+: target → (key y).length < (key x).length) ∧
      ∀ y ∈ after, key y <+: target → (key y).length ≤ (key x).length := by
  constructor
  · intro hx
    obtain ⟨-, before, after, rfl, hbefore⟩ := List.find?_eq_some_iff_append.mp hx.isFirst
    refine ⟨before, after, rfl, hx.isPrefix, fun y hy hpre => ?_, fun y hy hpre => ?_⟩
    · have hle := hx.maximal y (List.mem_append_left _ hy) hpre
      refine lt_of_le_of_ne hle fun hlength => ?_
      have hkey := key_eq_of_length_eq hpre hx.isPrefix hlength
      have hother := hbefore y hy
      rw [hkey] at hother
      simp at hother
    · exact hx.maximal y (List.mem_append_right _ (List.mem_cons_of_mem _ hy)) hpre
  · rintro ⟨before, after, rfl, hprefix, hbefore, hafter⟩
    refine ⟨ hprefix, fun y hy hpre => ?_, ?_⟩
    · rcases List.mem_append.mp hy with hy | hy
      · exact (hbefore y hy hpre).le
      · rcases List.mem_cons.mp hy with rfl | hy
        · exact le_refl _
        · exact hafter y hy hpre
    · refine List.find?_eq_some_iff_append.mpr ⟨decide_eq_true rfl, before, after, rfl, fun y hy => ?_⟩
      have hne : key y ≠ key x := fun heq => by
        have hlt := hbefore y hy (heq ▸ hprefix)
        rw [heq] at hlt
        exact absurd hlt (lt_irrefl _)
      simp [hne]

/-- **The entry found for one target is found for another exactly when its key is a prefix of the
other too and no longer key is.** -/
theorem longest_eq_iff {target' : List α} {table : List ι} {x : ι}
    (h : longest key target table = some x) :
    longest key target' table = some x ↔
      key x <+: target' ∧ ∀ y ∈ table, key y <+: target' → (key y).length ≤ (key x).length := by
  rw [longest_eq_some_iff]
  constructor
  · exact fun hx => ⟨hx.isPrefix, hx.maximal⟩
  · rintro ⟨hpre, hmax⟩
    exact ⟨hpre, hmax, (longest_eq_some_iff.mp h).isFirst⟩

end LongestPrefix
