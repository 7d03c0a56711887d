import Webserv.BinaryBuffer
import Webserv.Lib.FirstDifference

/-!
# The comparisons of `BinaryBuffer`

All overloads of `compare`, `==` and `!=` end in the same helper, which compares the first bytes of the two,
as many as the shorter one has.  What one of them has beyond that is not looked at, although the table of
chunk terminators is written for a test of equality: it lists the proper prefixes of its first entry apart.

* `compare_eq_zero_iff`: the answer is 0 when one of the two begins the other.
* `compare_neg_iff`: otherwise they are ordered by the first bytes that differ.
* `ordered_iff`: the buffers for which the comparisons are an order, and `==` is equality.

## Why the condition is about a set

Equality cannot hold of all buffers, since a buffer compares equal to each of its prefixes; and an order is
nothing that two buffers have.  The largest statement is about sets: on which sets of buffers is `==`
equality and `compare` a total order?  On those without a proper prefix of one of their members
(`PrefixFree`).  Each such set is fine, and a set with a prefix in it is not, by that pair alone.  That the
comparison is transitive needs the same condition: the empty buffer is equal to everything.

## Why the operands are one type

There are overloads for a buffer, a vector and a pointer.  They differ in how they get at the bytes, and
what a pointer leads to ends at its first NUL, where `strlen` stops.  `Operand` is what is handed over, and
`content` what the helper is called with.  An order on buffers must then hold for every operand with these
bytes.
-/

namespace Webserv
namespace BinaryBuffer

open FirstDifference

/-! ## The overloads -/

/-- What a comparison takes: a buffer, a vector, or a pointer to bytes that end with a NUL. -/
inductive Operand where
  | buffer (other : Bytes)
  | vector (other : Bytes)
  | cString (memory : Bytes)

/-- The bytes that the helper is called with; `strlen` stops at the first NUL. -/
def Operand.content : Operand → Bytes
  | .buffer other => other
  | .vector other => other
  | .cString memory => cstr memory

/-- The overloads of `BinaryBuffer::compare`, which differ in how the other operand is given and in nothing
else. -/
def compareTo (b : Bytes) (other : Operand) : Int := compare b other.content

/-- The overloads of `BinaryBuffer::operator==`. -/
def equal (b : Bytes) (other : Operand) : Bool := compareTo b other = 0

/-- The overloads of `BinaryBuffer::operator!=`. -/
def notEqual (b : Bytes) (other : Operand) : Bool := compareTo b other ≠ 0

/-! ## The helper -/

theorem compare_nil (w : Bytes) : compare [] w = 0 := by
  unfold compare memcmp
  rfl

theorem compare_nil_right (b : Bytes) : compare b [] = 0 := by
  cases b <;> rfl

theorem compare_cons (x y : Byte) (b w : Bytes) :
    compare (x :: b) (y :: w) = if x = y then compare b w else (x.toNat : Int) - y.toNat := by
  unfold compare
  rw [List.length_cons, List.length_cons, Nat.add_min_add_right, memcmp]

/-- **The rest of the longer one is not looked at**: two buffers compare equal when one of them begins the
other.  The induction is on both at once. -/
theorem compare_eq_zero_iff : ∀ {b w : Bytes}, compare b w = 0 ↔ Comparable b w
  | [], w => iff_of_true (compare_nil w) (Or.inl List.nil_prefix)
  | _ :: _, [] => iff_of_true (compare_nil_right _) (Or.inr List.nil_prefix)
  | x :: b, y :: w => by
    rw [compare_cons, comparable_cons]
    by_cases hxy : x = y
    · rw [if_pos hxy, compare_eq_zero_iff]
      exact (and_iff_right hxy).symm
    · have hne : x.toNat ≠ y.toNat := fun h => hxy (UInt8.toNat_inj.mp h)
      rw [if_neg hxy]
      exact iff_of_false (by omega) fun h => hxy h.1

theorem compare_neg_iff : ∀ {b w : Bytes}, compare b w < 0 ↔ Below (· < ·) b w
  | [], w => by
    rw [compare_nil]
    exact iff_of_false (Int.lt_irrefl 0) (not_nil_below w)
  | _ :: _, [] => by
    rw [compare_nil_right]
    exact iff_of_false (Int.lt_irrefl 0) (not_below_nil _)
  | x :: b, y :: w => by
    rw [compare_cons, below_cons]
    by_cases hxy : x = y
    · subst hxy
      rw [if_pos rfl, compare_neg_iff]
      exact ⟨fun h => Or.inr ⟨rfl, h⟩, fun h => (h.resolve_left (UInt8.lt_irrefl x)).2⟩
    · rw [if_neg hxy]
      have hlt : (x.toNat : Int) - y.toNat < 0 ↔ x < y := by
        rw [UInt8.lt_iff_toNat_lt]
        omega
      exact hlt.trans ⟨Or.inl, fun h => h.resolve_right fun heq => hxy heq.1⟩

/-- The other way round the sign changes, as the same two bytes decide. -/
theorem compare_swap : ∀ b w : Bytes, compare w b = - compare b w
  | [], w => by
    rw [compare_nil, compare_nil_right]
    rfl
  | _ :: _, [] => by
    rw [compare_nil, compare_nil_right]
    rfl
  | x :: b, y :: w => by
    rw [compare_cons, compare_cons]
    by_cases hxy : x = y
    · rw [if_pos hxy, if_pos hxy.symm, compare_swap b w]
    · rw [if_neg hxy, if_neg (Ne.symm hxy)]
      omega

/-! ## The order -/

/-- On the buffers of `S`, and on what holds the same bytes, `==` is equality and `compare` a total
order. -/
structure Ordered (S : Set Bytes) : Prop where
  equal_iff : ∀ a ∈ S, ∀ o : Operand, o.content ∈ S → (equal a o = true ↔ a = o.content)
  notEqual_iff : ∀ a ∈ S, ∀ o : Operand, o.content ∈ S → (notEqual a o = true ↔ a ≠ o.content)
  zero : ∀ a ∈ S, ∀ o : Operand, o.content ∈ S → (compareTo a o = 0 ↔ a = o.content)
  antisymm : ∀ a ∈ S, ∀ b ∈ S, ∀ o p : Operand, o.content = a → p.content = b →
    (compareTo a p < 0 ↔ 0 < compareTo b o)
  trans : ∀ a ∈ S, ∀ b ∈ S, ∀ o p : Operand, o.content = b → p.content ∈ S →
    compareTo a o ≤ 0 → compareTo b p ≤ 0 → compareTo a p ≤ 0

/-- **The comparisons are an order** exactly on buffers none of which is a proper prefix of another. -/
theorem ordered_iff (S : Set Bytes) : Ordered S ↔ PrefixFree S := by
  constructor
  · intro h a ha b hb hab
    exact (h.zero a ha (.buffer b) hb).mp (compare_eq_zero_iff.mpr (Or.inl hab))
  · intro hS
    have hzero : ∀ a ∈ S, ∀ o : Operand, o.content ∈ S → (compareTo a o = 0 ↔ a = o.content) := by
      intro a ha o ho
      rw [compareTo, compare_eq_zero_iff]
      refine ⟨hS.eq_of_comparable ha ho, fun heq => Or.inl ?_⟩
      rw [heq]
    have hle : ∀ {a b : Bytes}, compare a b ≤ 0 ↔ ¬ Below (· < ·) b a := by
      intro a b
      rw [← compare_neg_iff, compare_swap a b]
      omega
    constructor
    · intro a ha o ho
      rw [equal, decide_eq_true_iff, hzero a ha o ho]
    · intro a ha o ho
      rw [notEqual, decide_eq_true_iff, Ne, hzero a ha o ho]
    · exact hzero
    · rintro a - b - o p rfl rfl
      rw [compareTo, compareTo, compare_swap o.content p.content]
      omega
    · rintro a ha b hb o p rfl hp hao hop
      exact hle.mpr (not_below_trans hS ha hb (hle.mp hao) (hle.mp hop))

/-- The size line of the last chunk is the terminator, and the empty buffer is between any two. -/
theorem not_ordered :
    equal (bytes "0\r\n") (.cString (bytes "0\r\n\r\n")) = true ∧
      bytes "0\r\n" ≠ Operand.content (.cString (bytes "0\r\n\r\n")) ∧
      compareTo (bytes "b") (.buffer []) ≤ 0 ∧ compareTo [] (.buffer (bytes "a")) ≤ 0 ∧
      ¬ compareTo (bytes "b") (.buffer (bytes "a")) ≤ 0 := by
  decide

end BinaryBuffer
end Webserv
