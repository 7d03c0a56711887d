import Mathlib.Data.List.Basic
import Mathlib.Data.List.Infix
import Mathlib.Order.Defs.Unbundled
import Mathlib.Data.Set.Defs

/-!
# Lists compared at their first difference

Two lists that differ at a place they both have are ordered by their letters there.  Two lists of which one
begins the other do not differ at such a place, and are not ordered.

* `Below`: the first letters that differ are in the relation.
* `below_trichotomy`: two lists are ordered, or one begins the other.
* `not_below_trans`: in a set without proper prefixes, not being below is transitive.

## Why this is not the lexicographic order

The lexicographic order puts a list before every list that it begins.  A comparison that looks at the common
length only, as one of two buffers up to the shorter of them does, has nothing to say about such a pair: it
takes the two for equal.  `Below` is the relation that such a comparison decides.  It is transitive, as the
order is.  What fails is that being equal for the comparison is transitive: a list may begin two lists that
differ.

## Where it is an order all the same

On a set in which no member begins another, two members that are not ordered are equal
(`PrefixFree.eq_of_comparable`).  There the relation is a strict order, and "not above" is a total one.
That this is the only way it can be one is for the use of the library to show.
-/

namespace FirstDifference

variable {α : Type*} {r : α → α → Prop}

/-- At the first place where they differ, the letter of the first list is the lower one. -/
def Below (r : α → α → Prop) : List α → List α → Prop
  | x :: a, y :: b => r x y ∨ x = y ∧ Below r a b
  | _, _ => False

@[simp] theorem not_nil_below (b : List α) : ¬ Below r [] b := by
  cases b <;> exact id

@[simp] theorem not_below_nil (a : List α) : ¬ Below r a [] := by
  cases a <;> exact id

theorem below_cons {x y : α} {a b : List α} :
    Below r (x :: a) (y :: b) ↔ r x y ∨ x = y ∧ Below r a b := Iff.rfl

/-- Of two lists one begins the other. -/
def Comparable (a b : List α) : Prop := a <+: b ∨ b <+: a

/-- Lists with a first letter each: the letters are the same, and so it goes on. -/
theorem comparable_cons {x y : α} {a b : List α} :
    Comparable (x :: a) (y :: b) ↔ x = y ∧ Comparable a b := by
  unfold Comparable
  rw [List.cons_prefix_cons, List.cons_prefix_cons]
  constructor
  · rintro (⟨rfl, h⟩ | ⟨rfl, h⟩)
    · exact ⟨rfl, Or.inl h⟩
    · exact ⟨rfl, Or.inr h⟩
  · rintro ⟨rfl, h⟩
    exact h.imp (⟨rfl, ·⟩) (⟨rfl, ·⟩)

/-- No proper prefix of a member is a member. -/
def PrefixFree (S : Set (List α)) : Prop := ∀ a ∈ S, ∀ b ∈ S, a <+: b → a = b

/-- In such a set, one member begins another only when the two are the same. -/
theorem PrefixFree.eq_of_comparable {S : Set (List α)} (h : PrefixFree S) {a b : List α} (ha : a ∈ S)
    (hb : b ∈ S) (hab : Comparable a b) : a = b := by
  rcases hab with hab | hba
  · exact h a ha b hb hab
  · exact (h b hb a ha hba).symm

/-- The first difference of the outer two is the earlier of the two differences. -/
theorem Below.trans [IsTrans α r] : ∀ {a b c : List α}, Below r a b → Below r b c → Below r a c
  | [], _, _, hab, _ => absurd hab (not_nil_below _)
  | _ :: _, [], _, hab, _ => absurd hab (not_below_nil _)
  | _ :: _, _ :: _, [], _, hbc => absurd hbc (not_below_nil _)
  | x :: a, y :: b, z :: c, hab, hbc => by
    rw [below_cons] at hab hbc ⊢
    rcases hab with hxy | ⟨rfl, hab⟩
    · rcases hbc with hyz | ⟨rfl, -⟩
      · exact Or.inl (trans_of r hxy hyz)
      · exact Or.inl hxy
    · rcases hbc with hyz | ⟨rfl, hbc⟩
      · exact Or.inl hyz
      · exact Or.inr ⟨rfl, hab.trans hbc⟩

/-- Two lists are ordered, or one begins the other. -/
theorem below_trichotomy [Std.Trichotomous r] : ∀ a b : List α, Below r a b ∨ Comparable a b ∨ Below r b a
  | [], b => Or.inr (Or.inl (Or.inl (List.nil_prefix)))
  | _ :: _, [] => Or.inr (Or.inl (Or.inr (List.nil_prefix)))
  | x :: a, y :: b => by
    rw [below_cons, below_cons, comparable_cons]
    by_cases hxy : r x y
    · exact Or.inl (Or.inl hxy)
    by_cases hyx : r y x
    · exact Or.inr (Or.inr (Or.inl hyx))
    obtain rfl : x = y := Std.Trichotomous.trichotomous x y hxy hyx
    rcases below_trichotomy a b with h | h | h
    · exact Or.inl (Or.inr ⟨rfl, h⟩)
    · exact Or.inr (Or.inl ⟨rfl, h⟩)
    · exact Or.inr (Or.inr (Or.inr ⟨rfl, h⟩))

/-- **Without proper prefixes the lists are in order**: not to be below is transitive, which fails as soon
as a prefix is comparable to two lists. -/
theorem not_below_trans [IsTrans α r] [Std.Trichotomous r] {S : Set (List α)} (hS : PrefixFree S)
    {a b c : List α} (ha : a ∈ S) (hb : b ∈ S) (hba : ¬ Below r b a) (hcb : ¬ Below r c b) :
    ¬ Below r c a := by
  intro hca
  rcases below_trichotomy (r := r) a b with hab | hab | hab
  · exact hcb (hca.trans hab)
  · rw [hS.eq_of_comparable ha hb hab] at hca
    exact hcb hca
  · exact hba hab

end FirstDifference
