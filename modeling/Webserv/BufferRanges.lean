import Webserv.BinaryBuffer

/-!
# `BinaryBuffer` in 64-bit words

The positions and lengths of `subbb`, `substr` and `erase` are `size_t`.  The first two clip a length by
what is left behind the position; `erase` adds it to the position first, and the sum can wrap.  The range it
then erases ends before it begins, which `std::vector::erase` has no meaning for.

* `SizedBuffer`: a buffer that fits in memory.
* `subbb_eq`, `eraseAt_eq`: the words agree with the naturals where nothing wraps.
* `eraseAt_zero`: the calls of the program are among these.
* `erasesWhatIsExtracted_iff`: the positions and lengths for which it does not.

## Why words and not numbers

Elsewhere in the development a buffer is a list and a length a natural number, because the program erases
from the front and no length comes near 2^64.  Here the question is what the operations do with any two
words, and `npos`, the word with all its bits set, is the usual length for everything that is left.  So
positions are `UInt64`, with its own addition, and a buffer carries the bound that `std::vector` puts on its
size.  Each operation is then related to the one on lists by an equation, under the condition that the sum
does not wrap.

## Why `subbb` and `erase` are compared

The program takes a part out and then erases it, so what matters is that both mean the same part.
`ErasesWhatIsExtracted` states this as a decomposition of the buffer: in front, the part, and behind, with
the part returned by the one and the other two left by the other.  For a position behind the end all three
agree that nothing is there, also with a length that would wrap.
-/

namespace Webserv

/-- `std::string::npos`. -/
abbrev npos : UInt64 := 18446744073709551615

/-- `_buffer`: a vector of bytes holds at most `PTRDIFF_MAX` of them. -/
structure SizedBuffer where
  buffer : Bytes
  length_lt : buffer.length < 2 ^ 63

namespace SizedBuffer

variable (b : SizedBuffer)

/-- `_buffer.size()`. -/
def size : UInt64 := UInt64.ofNat b.buffer.length

@[simp] theorem toNat_size : b.size.toNat = b.buffer.length :=
  UInt64.toNat_ofNat_of_lt' (by
    have := b.length_lt
    unfold UInt64.size
    omega)

/-! ## The operations -/

/-- `n` bytes from `_buffer.data() + pos`. -/
def range (pos n : UInt64) : Bytes := (b.buffer.drop pos.toNat).take n.toNat

theorem length_range_lt (pos n : UInt64) : (b.range pos n).length < 2 ^ 63 := by
  have := b.length_lt
  rw [range, List.length_take, List.length_drop]
  omega

/-- `BinaryBuffer::subbb`. -/
def subbb (pos len : UInt64) : SizedBuffer :=
  if pos ≥ b.size then ⟨[], by decide⟩
  else ⟨b.range pos (min len (b.size - pos)), b.length_range_lt _ _⟩

/-- `BinaryBuffer::substr`. -/
def substr (pos len : UInt64) : Bytes :=
  if pos ≥ b.size then [] else b.range pos (min len (b.size - pos))

/-- The two iterators of `erase`, as offsets from `begin()`.  The sum is one of `size_t` and may wrap
around. -/
def eraseRange (pos len : UInt64) : UInt64 × UInt64 := (pos, min (pos + len) b.size)

theorem length_erased_lt {first last : Nat} (h : first ≤ last) :
    (b.buffer.take first ++ b.buffer.drop last).length < 2 ^ 63 := by
  have := b.length_lt
  rw [List.length_append, List.length_take, List.length_drop]
  omega

/-- `std::vector::erase(first, last)`: `none` where the range is not one of the vector, which the standard
leaves undefined. -/
def vectorErase (first last : UInt64) : Option SizedBuffer :=
  if h : first.toNat ≤ last.toNat ∧ last ≤ b.size then
    some ⟨b.buffer.take first.toNat ++ b.buffer.drop last.toNat, b.length_erased_lt h.1⟩
  else none

/-- `BinaryBuffer::erase`. -/
def eraseAt (pos len : UInt64) : Option SizedBuffer :=
  if pos ≥ b.size then some b
  else b.vectorErase (b.eraseRange pos len).1 (b.eraseRange pos len).2

/-! ## The naturals -/

variable {b} {pos len : UInt64}

theorem size_le_iff : b.size ≤ pos ↔ b.buffer.length ≤ pos.toNat := by
  rw [UInt64.le_iff_toNat_le, toNat_size]

/-- What is left behind the position. -/
theorem toNat_size_sub (h : ¬ b.size ≤ pos) : (b.size - pos).toNat = b.buffer.length - pos.toNat := by
  rw [size_le_iff] at h
  rw [UInt64.toNat_sub_of_le _ _ (UInt64.le_iff_toNat_le.mpr (by rw [toNat_size]; omega)), toNat_size]

theorem substr_eq (b : SizedBuffer) (pos len : UInt64) :
    b.substr pos len = BinaryBuffer.substr b.buffer pos.toNat len.toNat := by
  unfold substr BinaryBuffer.substr
  by_cases h : b.size ≤ pos
  · rw [if_pos h, if_pos (size_le_iff.mp h)]
  · rw [if_neg h, if_neg fun hle => h (size_le_iff.mpr hle), range, UInt64.toNat_min, toNat_size_sub h]

theorem subbb_eq (b : SizedBuffer) (pos len : UInt64) : (b.subbb pos len).buffer = b.substr pos len := by
  unfold subbb substr
  split_ifs <;> rfl

/-- The end of the range, where the sum does not wrap. -/
theorem toNat_eraseRange (hsum : pos.toNat + len.toNat < 2 ^ 64) :
    (b.eraseRange pos len).2.toNat = min (pos.toNat + len.toNat) b.buffer.length := by
  rw [eraseRange, UInt64.toNat_min, UInt64.toNat_add, Nat.mod_eq_of_lt hsum, toNat_size]

/-- Where the sum wraps, the range ends before it begins. -/
theorem eraseRange_lt_of_wraps (hsum : 2 ^ 64 ≤ pos.toNat + len.toNat) :
    (b.eraseRange pos len).2.toNat < pos.toNat := by
  have hlen := len.toNat_lt
  have hpos := pos.toNat_lt
  rw [eraseRange, UInt64.toNat_min, UInt64.toNat_add]
  omega

theorem eraseAt_eq (hsum : pos < b.size → pos.toNat + len.toNat < 2 ^ 64) :
    (b.eraseAt pos len).map buffer = some (BinaryBuffer.erase b.buffer pos.toNat len.toNat) := by
  unfold eraseAt BinaryBuffer.erase
  by_cases h : b.size ≤ pos
  · rw [if_pos h, if_pos (size_le_iff.mp h)]
    rfl
  · have hlt := size_le_iff.not.mp h
    have hlast := toNat_eraseRange (b := b) (hsum (UInt64.not_le.mp h))
    have hrange : (b.eraseRange pos len).1.toNat ≤ (b.eraseRange pos len).2.toNat ∧
        (b.eraseRange pos len).2 ≤ b.size := by
      rw [UInt64.le_iff_toNat_le, hlast, toNat_size]
      show pos.toNat ≤ _ ∧ _
      omega
    rw [if_neg h, if_neg hlt, vectorErase, dif_pos hrange, Option.map_some, ← hlast]
    rfl

/-- The calls of the program erase from the front, where no length wraps. -/
theorem eraseAt_zero (b : SizedBuffer) (len : UInt64) :
    (b.eraseAt 0 len).map buffer = some (BinaryBuffer.erase b.buffer 0 len.toNat) :=
  eraseAt_eq fun _ => by
    have hlen := len.toNat_lt
    show 0 + len.toNat < 2 ^ 64
    omega

/-! ## The agreement -/

/-- What `erase` removes is what `subbb` and `substr` return, from a range of the buffer. -/
structure ErasesWhatIsExtracted (b : SizedBuffer) (pos len : UInt64) : Prop where
  same : b.substr pos len = (b.subbb pos len).buffer
  splits : ∃ rest,
    b.buffer = b.buffer.take (min pos.toNat b.buffer.length) ++ ((b.subbb pos len).buffer ++ rest) ∧
      (b.eraseAt pos len).map buffer = some (b.buffer.take (min pos.toNat b.buffer.length) ++ rest)
  inside : pos < b.size →
    (b.eraseRange pos len).1 ≤ (b.eraseRange pos len).2 ∧ (b.eraseRange pos len).2 ≤ b.size

/-- The three parts of a buffer: what stands before the position, what is extracted, and what follows.  In
the naturals, where no addition wraps around, extracting and erasing mean the same bytes. -/
theorem erase_substr (buffer : Bytes) (pos len : Nat) : ∃ rest,
    buffer = buffer.take (min pos buffer.length) ++ (BinaryBuffer.substr buffer pos len ++ rest) ∧
      BinaryBuffer.erase buffer pos len = buffer.take (min pos buffer.length) ++ rest := by
  unfold BinaryBuffer.substr BinaryBuffer.erase
  by_cases h : pos ≥ buffer.length
  · rw [if_pos h, if_pos h, min_eq_right h, List.take_length]
    exact ⟨[], by simp, by simp⟩
  · have hpos : min pos buffer.length = pos := min_eq_left (by omega)
    rw [if_neg h, if_neg h, hpos]
    refine ⟨buffer.drop (min (pos + len) buffer.length), ?_, rfl⟩
    have hmin : min (pos + len) buffer.length = pos + min len (buffer.length - pos) := by omega
    rw [hmin, ← List.drop_drop, List.take_append_drop, List.take_append_drop]

/-- **Extract and erase agree** exactly when the end of the range does not wrap, or nothing is left behind
the position. -/
theorem erasesWhatIsExtracted_iff (b : SizedBuffer) (pos len : UInt64) :
    ErasesWhatIsExtracted b pos len ↔ (pos < b.size → pos.toNat + len.toNat < 2 ^ 64) := by
  constructor
  · intro h hpos
    by_contra hsum
    have hlt := eraseRange_lt_of_wraps (b := b) (not_lt.mp hsum)
    have hle : pos.toNat ≤ (b.eraseRange pos len).2.toNat := (h.inside hpos).1
    omega
  · intro hsum
    obtain ⟨rest, hsplit, herase⟩ := erase_substr b.buffer pos.toNat len.toNat
    refine ⟨(subbb_eq b pos len).symm, ⟨rest, ?_, ?_⟩, fun hpos => ?_⟩
    · rwa [subbb_eq, substr_eq]
    · rw [eraseAt_eq hsum, herase]
    · have hlt := UInt64.lt_iff_toNat_lt.mp hpos
      rw [toNat_size] at hlt
      rw [UInt64.le_iff_toNat_le, UInt64.le_iff_toNat_le, toNat_eraseRange (hsum hpos), toNat_size]
      show pos.toNat ≤ _ ∧ _
      omega

/-- Everything behind the first byte. -/
theorem not_erasesWhatIsExtracted :
    let b : SizedBuffer := ⟨bytes "abc", by decide⟩
    (b.subbb 1 npos).buffer = bytes "bc" ∧ b.eraseRange 1 npos = (1, 0) ∧ (b.eraseAt 1 npos).isNone ∧
      ¬ ErasesWhatIsExtracted b 1 npos := by
  refine ⟨by decide +kernel, by decide +kernel, by decide +kernel, fun h => ?_⟩
  exact absurd (h.inside (by decide +kernel)).1 (by decide +kernel)

end SizedBuffer
end Webserv
