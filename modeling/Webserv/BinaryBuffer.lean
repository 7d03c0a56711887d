import Webserv.Bytes
import Webserv.Lib.Search

/-!
# `BinaryBuffer`

The class that the unread bytes of a client are kept in: a byte array with the searches of `std::string`,
and an `erase` at its front.

* `find`, `rfind`: the searches.  `none` is `npos`.
* `memcmp`, `compare`: the comparison, which looks at the common length only.
* `substr`, `erase`: what a parser takes and drops.
* `find_eq_findSub`, `erase_zero`, `rfind_zero`: what the parsers use of them.

## How it is modelled

The buffer is the list of its bytes, and sizes and positions are natural numbers.  The one sum that the
source computes, `pos + len` in `erase`, does not wrap in the program: every call of the parsers has `pos`
0.  The calls that the parsers do not make, with other positions and with sizes up to 2^64, are the matter
of `BufferRanges`, where the sum is the machine's.

The four functions differ from those of `std::string` that their comments name, and the definitions keep the
differences.  `find` takes the end of the buffer for "not found", so that an empty needle is not found in an
empty buffer.  `rfind` starts at the last byte at most, and refuses an empty needle.  `compare` has no
regard for what the longer of the two has more: a buffer that begins with a word compares equal to it, and
the end of a chunked body is recognised so.

## Why `rfind` from 0 has a lemma

The readers of a chunk ask whether the buffer begins with a line end, and they ask it as `rfind("\r\n", 0)`,
which looks at position 0 and at no other.  `rfind_zero` turns this into a prefix test once, and the proofs
about the readers never see the loop.
-/

namespace Webserv
namespace BinaryBuffer

/-- `BinaryBuffer::find`: `none` is `npos`.  The source takes the end pointer for "not found", also where
the end is where the needle was found. -/
def find (b w : Bytes) : Option Nat :=
  match Search.findSub w b with
  | some i => if i = b.length then none else some i
  | none => none

/-- The downward loop of `rfind`, started at `i`: each position is tried for the whole needle. -/
def rfindFrom (b w : Bytes) : Nat → Option Nat
  | 0 => if w.length ≤ b.length ∧ w.isPrefixOf b then some 0 else none
  | i + 1 =>
    if w.length ≤ b.length - (i + 1) ∧ w.isPrefixOf (b.drop (i + 1)) then some (i + 1)
    else rfindFrom b w i

/-- `BinaryBuffer::rfind`: from `pos`, or from the last byte where `pos` is beyond it. -/
def rfind (b w : Bytes) (pos : Nat) : Option Nat :=
  if w.length = 0 ∨ w.length > b.length then none
  else rfindFrom b w (if pos ≥ b.length then b.length - 1 else pos)

/-- `std::memcmp` on the first `n` bytes: the difference at the first byte that differs. -/
def memcmp : Bytes → Bytes → Nat → Int
  | a :: s, b :: t, n + 1 => if a = b then memcmp s t n else (a.toNat : Int) - b.toNat
  | _, _, _ => 0

/-- `BinaryBuffer::compare`: only the common length is compared, so that a prefix counts as equal. -/
def compare (b w : Bytes) : Int := memcmp b w (min w.length b.length)

/-- `BinaryBuffer::substr`: empty beyond the end, where `std::string` throws. -/
def substr (b : Bytes) (pos len : Nat) : Bytes :=
  if pos ≥ b.length then [] else (b.drop pos).take (min len (b.length - pos))

/-- `BinaryBuffer::erase`: nothing beyond the end, and up to the end where the length is too large. -/
def erase (b : Bytes) (pos len : Nat) : Bytes :=
  if pos ≥ b.length then b
  else b.take pos ++ b.drop (min (pos + len) b.length)

/-! ## What the parsers use -/

/-- For a needle that is not empty the search is that of the library: it cannot be found at the end. -/
theorem find_eq_findSub {b w : Bytes} (hw : w ≠ []) : find b w = Search.findSub w b := by
  unfold find
  cases h : Search.findSub w b with
  | none => rfl
  | some i =>
    have := Search.add_le_of_findSub h
    have := List.length_pos_iff.mpr hw
    simp only
    rw [if_neg (by omega)]

/-- From the front, `substr` is `take`. -/
theorem substr_zero (b : Bytes) (len : Nat) : substr b 0 len = b.take len := by
  unfold substr
  split
  · have hb : b = [] := List.eq_nil_of_length_eq_zero (by omega)
    rw [hb, List.take_nil]
  · rw [List.drop_zero, Nat.sub_zero, ← List.take_eq_take_min]

/-- At the front, `erase` is `drop`: the only use that the parsers make of it. -/
theorem erase_zero (b : Bytes) (len : Nat) : erase b 0 len = b.drop len := by
  unfold erase
  split
  · have hb : b = [] := List.eq_nil_of_length_eq_zero (by omega)
    rw [hb, List.drop_nil]
  · rw [List.take_zero, List.nil_append, Nat.zero_add]
    rcases le_total len b.length with hl | hl
    · rw [min_eq_left hl]
    · rw [min_eq_right hl, List.drop_eq_nil_of_le (le_refl _), List.drop_eq_nil_of_le hl]

/-- From position 0, `rfind` looks at the front of the buffer only. -/
theorem rfind_zero {b w : Bytes} (hw : w ≠ []) :
    rfind b w 0 = if w.isPrefixOf b then some 0 else none := by
  have hlength := List.length_pos_iff.mpr hw
  by_cases hb : w.length ≤ b.length
  · have hstart : (if 0 ≥ b.length then b.length - 1 else 0) = 0 := by
      rw [if_neg (by omega)]
    rw [rfind, if_neg (by omega), hstart, rfindFrom]
    simp only [hb, true_and]
  · have hnot : ¬ w.isPrefixOf b = true := fun hprefix =>
      hb (List.isPrefixOf_iff_prefix.mp hprefix).length_le
    rw [rfind, if_pos (by omega), if_neg hnot]

end BinaryBuffer
end Webserv
