import Webserv.BufferRanges
import Mathlib.Data.List.GetD
import Mathlib.Order.Bounds.Basic

/-!
# Searching a `BinaryBuffer`

`find` is `std::search`, with the end pointer for "not found"; `rfind` counts down in `size_t` and compares
with `memcmp`, which may read all the bytes it is given.  Both are written with the indices of the buffer
that they read.

* `find`, `rfind`: the two searches, and `findReads`, `rfindReads`: what they read.
* `answers_findM`, `answers_rfindM`: the answers are those of the searches in the naturals, and all reads
  are inside the buffer.
* `search_spec`: the least place, and the greatest up to a position.

## Why the reads are recorded

A search that reads one byte too many still finds the right place.  To say that it stays inside its buffer,
the bytes it looks at must be part of what it returns: every access goes through `byteAt`, which notes the
index.  `Answers` is what a computation in this monad comes to, a value together with the bound on its
reads, whatever was noted before.  It is closed under `bind`, so the loops are handled like any other
function, by induction on what is left.

## Why `rfind` does not wrap

The loop starts at `pos + 1` and counts down with `i-- > 0`, in unsigned words, and before it the position
is clipped.  The test of a place is `size() - i`, a difference that is right as long as `i` is inside the
buffer, and this is what the clipping is for (`size_le_sub_iff`).  The statement covers every position,
`npos` included.

## What an empty needle gives

An empty needle is left out of the statement.  `rfind` answers `npos` for it, which is not what
`std::string::rfind` does, although the source names it as the pattern; the program never searches for one.
-/

namespace Webserv
namespace SizedBuffer

/-! ## Reads -/

/-- `_buffer.data()[i]`, and the index is noted, whatever is done with the byte. -/
def byteAt (b : SizedBuffer) (i : Nat) : StateM (List Nat) Byte := do
  modify (· ++ [i])
  return b.buffer.getD i 0

/-- The bytes from `i` on begin with `w`, as `std::search` tests it: byte by byte, not behind the end. -/
def matchesAt (b : SizedBuffer) : Bytes → Nat → StateM (List Nat) Bool
  | [], _ => return true
  | c :: w, i =>
    if i = b.buffer.length then return false
    else do if (← b.byteAt i) = c then matchesAt b w (i + 1) else return false

/-- The loop of `std::search` from `i`, with `n` bytes left: the place, or the end. -/
def searchFrom (b : SizedBuffer) (w : Bytes) : Nat → Nat → StateM (List Nat) Nat
  | 0, i => return i
  | n + 1, i => do
    if (← b.matchesAt w i) then return i else searchFrom b w n (i + 1)

/-- `std::memcmp(buffer, _buffer.data() + i, size) == 0`: all the bytes are read. -/
def equalAt (b : SizedBuffer) : Bytes → Nat → StateM (List Nat) Bool
  | [], _ => return true
  | c :: w, i => do
    let x ← b.byteAt i
    let rest ← equalAt b w (i + 1)
    return x = c && rest

/-! ## The searches -/

/-- `BinaryBuffer::find`: the end of the buffer stands for "not found". -/
def findM (b w : SizedBuffer) : StateM (List Nat) UInt64 := do
  let pos ← b.searchFrom w.buffer b.buffer.length 0
  return if pos = b.buffer.length then npos else UInt64.ofNat pos

/-- The loop of `rfind`, `for (size_t i = pos + 1; i-- > 0;)`. -/
def rfindLoop (b w : SizedBuffer) : Nat → StateM (List Nat) UInt64
  | 0 => return npos
  | i + 1 =>
    if w.size ≤ b.size - UInt64.ofNat i then do
      if (← b.equalAt w.buffer i) then return UInt64.ofNat i else rfindLoop b w i
    else rfindLoop b w i

/-- `BinaryBuffer::rfind`: a position behind the end is clipped, and the loop counts down from it. -/
def rfindM (b w : SizedBuffer) (pos : UInt64) : StateM (List Nat) UInt64 :=
  if w.size = 0 ∨ w.size > b.size then return npos
  else
    let pos := if pos ≥ b.size then b.size - 1 else pos
    rfindLoop b w (pos + 1).toNat

variable (b w : SizedBuffer) (pos : UInt64)

def find : UInt64 := ((b.findM w).run []).run.1
def findReads : List Nat := ((b.findM w).run []).run.2
def rfind : UInt64 := ((b.rfindM w pos).run []).run.1
def rfindReads : List Nat := ((b.rfindM w pos).run []).run.2

/-! ## Computations that read the buffer -/

variable {b w} {pos}

/-- The computation answers `a`, whatever was read before, and reads inside the buffer. -/
def Answers (b : SizedBuffer) {α : Type} (m : StateM (List Nat) α) (a : α) : Prop :=
  ∀ reads, ∃ more, (m.run reads).run = (a, reads ++ more) ∧ ∀ i ∈ more, i < b.buffer.length

theorem answers_pure {α : Type} (a : α) : b.Answers (pure a) a :=
  fun reads => ⟨[], by rw [List.append_nil]; rfl, fun _ hi => absurd hi List.not_mem_nil⟩

theorem Answers.bind {α β : Type} {m : StateM (List Nat) α} {f : α → StateM (List Nat) β} {a : α} {c : β}
    (hm : b.Answers m a) (hf : b.Answers (f a) c) : b.Answers (m >>= f) c := by
  intro reads
  obtain ⟨more, hrun, hmore⟩ := hm reads
  obtain ⟨rest, hrest, hinside⟩ := hf (reads ++ more)
  refine ⟨more ++ rest, ?_, fun i hi => (List.mem_append.mp hi).elim (hmore i) (hinside i)⟩
  rw [StateT.run_bind, Id.run_bind, hrun, hrest, List.append_assoc]

theorem answers_byteAt {i : Nat} (hi : i < b.buffer.length) : b.Answers (b.byteAt i) (b.buffer.getD i 0) :=
  fun reads => ⟨[i], rfl, fun j hj => by rwa [List.mem_singleton.mp hj]⟩

/-- A search that starts with nothing noted: its value, and the reads that it made. -/
theorem Answers.run {α : Type} {m : StateM (List Nat) α} {a : α} (h : b.Answers m a) :
    (m.run []).run.1 = a ∧ ∀ i ∈ (m.run []).run.2, i < b.buffer.length := by
  obtain ⟨more, hrun, hmore⟩ := h []
  rw [hrun]
  exact ⟨rfl, hmore⟩

/-- One byte of a needle: the step of the comparison, which is by recursion on the needle. -/
theorem prefix_drop_cons {c : Byte} {s : Bytes} {i : Nat} (hi : i < b.buffer.length) :
    c :: s <+: b.buffer.drop i ↔ b.buffer.getD i 0 = c ∧ s <+: b.buffer.drop (i + 1) := by
  rw [List.drop_eq_getElem_cons hi, List.cons_prefix_cons, List.getD_eq_getElem _ _ hi]
  exact and_congr_left' eq_comm

theorem answers_matchesAt : ∀ {s : Bytes} {i : Nat}, i ≤ b.buffer.length →
    b.Answers (b.matchesAt s i) (decide (s <+: b.buffer.drop i))
  | [], i, _ => by
    rw [decide_eq_true (List.nil_prefix)]
    exact answers_pure true
  | c :: s, i, hi => by
    rw [matchesAt]
    split_ifs with hend
    · have hnot : ¬ c :: s <+: b.buffer.drop i := by
        rw [hend, List.drop_length]
        exact fun h => absurd (List.prefix_nil.mp h) (List.cons_ne_nil c s)
      rw [decide_eq_false hnot]
      exact answers_pure false
    · have hlt : i < b.buffer.length := by omega
      refine (answers_byteAt hlt).bind ?_
      by_cases hc : b.buffer.getD i 0 = c
      · rw [if_pos hc, decide_eq_decide.mpr ((prefix_drop_cons hlt).trans (and_iff_right hc))]
        exact answers_matchesAt hlt
      · rw [if_neg hc, decide_eq_false fun h => hc ((prefix_drop_cons hlt).mp h).1]
        exact answers_pure false

theorem answers_equalAt : ∀ {s : Bytes} {i : Nat}, i + s.length ≤ b.buffer.length →
    b.Answers (b.equalAt s i) (decide (s <+: b.buffer.drop i))
  | [], i, _ => by
    rw [decide_eq_true (List.nil_prefix)]
    exact answers_pure true
  | c :: s, i, hi => by
    rw [List.length_cons] at hi
    have hlt : i < b.buffer.length := by omega
    rw [equalAt, decide_eq_decide.mpr (prefix_drop_cons hlt), Bool.decide_and]
    exact (answers_byteAt hlt).bind ((answers_equalAt (by omega)).bind (answers_pure _))

/-! ## `find` -/

theorem answers_searchFrom {s : Bytes} : ∀ {n i : Nat}, i + n = b.buffer.length →
    b.Answers (b.searchFrom s n i) (((Search.findSub s (b.buffer.drop i)).map (· + i)).getD b.buffer.length)
  | 0, i, hi => by
    have hvalue : ((Search.findSub s (b.buffer.drop i)).map (· + i)).getD b.buffer.length = i := by
      rw [List.drop_eq_nil_of_le (by omega), Search.findSub]
      split_ifs
      · exact Nat.zero_add i
      · exact hi.symm
    rw [hvalue]
    exact answers_pure i
  | n + 1, i, hi => by
    have hlt : i < b.buffer.length := by omega
    refine (answers_matchesAt hlt.le).bind ?_
    rw [List.drop_eq_getElem_cons hlt, Search.findSub]
    by_cases hs : s <+: b.buffer[i] :: b.buffer.drop (i + 1)
    · rw [if_pos (decide_eq_true hs), if_pos (List.isPrefixOf_iff_prefix.mpr hs), Option.map_some,
        Option.getD_some, Nat.zero_add]
      exact answers_pure i
    · rw [if_neg (by rwa [decide_eq_true_iff]), if_neg (by rwa [List.isPrefixOf_iff_prefix]), Option.map_map]
      have ih := answers_searchFrom (s := s) (n := n) (i := i + 1) (by omega)
      have hshift : (fun j => j + (i + 1)) = (· + i) ∘ (· + 1) := funext fun j => by
        show j + (i + 1) = j + 1 + i
        omega
      rwa [hshift] at ih

theorem answers_findM (b w : SizedBuffer) :
    b.Answers (b.findM w) ((BinaryBuffer.find b.buffer w.buffer).elim npos UInt64.ofNat) := by
  have hsearch := answers_searchFrom (b := b) (s := w.buffer) (Nat.zero_add b.buffer.length)
  rw [List.drop_zero] at hsearch
  refine hsearch.bind ?_
  unfold BinaryBuffer.find
  cases Search.findSub w.buffer b.buffer with
  | none =>
    rw [Option.map_none, Option.getD_none, if_pos rfl]
    exact answers_pure npos
  | some i =>
    rw [Option.map_some, Option.getD_some, Nat.add_zero]
    dsimp only
    split_ifs
    · exact answers_pure npos
    · exact answers_pure _

/-! ## `rfind` -/

/-- The test of a place in `size_t`: `i` is inside the buffer, so that the difference does not wrap. -/
theorem size_le_sub_iff {i : Nat} (hi : i < b.buffer.length) :
    w.size ≤ b.size - UInt64.ofNat i ↔ w.buffer.length ≤ b.buffer.length - i := by
  have hlength := b.length_lt
  have hofNat : (UInt64.ofNat i).toNat = i := UInt64.toNat_ofNat_of_lt' (by unfold UInt64.size; omega)
  have hle : UInt64.ofNat i ≤ b.size := by
    rw [UInt64.le_iff_toNat_le, hofNat, toNat_size]
    omega
  rw [UInt64.le_iff_toNat_le, UInt64.toNat_sub_of_le _ _ hle, hofNat, toNat_size, toNat_size]

theorem answers_rfindLoop (b w : SizedBuffer) : ∀ {i : Nat}, i < b.buffer.length →
    b.Answers (b.rfindLoop w (i + 1))
      ((BinaryBuffer.rfindFrom b.buffer w.buffer i).elim npos UInt64.ofNat) := by
  -- one round of the loop, and what comes after it
  have hround : ∀ {i : Nat} {next : UInt64}, i < b.buffer.length → b.Answers (b.rfindLoop w i) next →
      b.Answers (b.rfindLoop w (i + 1))
        (if w.buffer.length ≤ b.buffer.length - i ∧ w.buffer.isPrefixOf (b.buffer.drop i) then UInt64.ofNat i
        else next) := by
    intro i next hi hnext
    rw [rfindLoop]
    by_cases hfits : w.buffer.length ≤ b.buffer.length - i
    · rw [if_pos ((size_le_sub_iff hi).mpr hfits)]
      refine (answers_equalAt (by omega)).bind ?_
      by_cases hs : w.buffer <+: b.buffer.drop i
      · rw [if_pos (decide_eq_true hs), if_pos ⟨hfits, List.isPrefixOf_iff_prefix.mpr hs⟩]
        exact answers_pure _
      · rw [if_neg (by rwa [decide_eq_true_iff]), if_neg fun h => hs (List.isPrefixOf_iff_prefix.mp h.2)]
        exact hnext
    · rw [if_neg fun h => hfits ((size_le_sub_iff hi).mp h), if_neg fun h => hfits h.1]
      exact hnext
  intro i hi
  induction i with
  | zero =>
    have h := hround hi (answers_pure npos)
    rw [BinaryBuffer.rfindFrom, apply_ite (Option.elim · npos UInt64.ofNat)]
    exact h
  | succ i ih =>
    have h := hround hi (ih (by omega))
    rw [BinaryBuffer.rfindFrom, apply_ite (Option.elim · npos UInt64.ofNat)]
    exact h

theorem answers_rfindM (b w : SizedBuffer) (pos : UInt64) :
    b.Answers (b.rfindM w pos)
      ((BinaryBuffer.rfind b.buffer w.buffer pos.toNat).elim npos UInt64.ofNat) := by
  have hsize : (w.size = 0 ∨ w.size > b.size) ↔
      (w.buffer.length = 0 ∨ w.buffer.length > b.buffer.length) := by
    rw [gt_iff_lt, UInt64.lt_iff_toNat_lt, ← UInt64.toNat_inj, toNat_size, toNat_size]
    rfl
  unfold rfindM BinaryBuffer.rfind
  by_cases hrefused : w.size = 0 ∨ w.size > b.size
  · rw [if_pos hrefused, if_pos (hsize.mp hrefused)]
    exact answers_pure npos
  · rw [if_neg hrefused, if_neg fun h => hrefused (hsize.mpr h)]
    have hpos : 0 < b.buffer.length := by
      have hnot := hsize.not.mp hrefused
      omega
    have hone : (b.size - 1).toNat = b.buffer.length - 1 := by
      rw [UInt64.toNat_sub_of_le _ _ (UInt64.le_iff_toNat_le.mpr (by rw [toNat_size]; exact hpos)), toNat_size]
      rfl
    have hstart : (if pos ≥ b.size then b.size - 1 else pos).toNat =
        if pos.toNat ≥ b.buffer.length then b.buffer.length - 1 else pos.toNat := by
      by_cases h : b.size ≤ pos
      · rw [if_pos h, if_pos (size_le_iff.mp h), hone]
      · rw [if_neg h, if_neg fun hle => h (size_le_iff.mpr hle)]
    have hlast : (if pos ≥ b.size then b.size - 1 else pos).toNat < b.buffer.length := by
      rw [hstart]
      split_ifs <;> omega
    -- the start is inside the buffer, so that the sum does not wrap
    have hsucc : ((if pos ≥ b.size then b.size - 1 else pos) + 1).toNat =
        (if pos ≥ b.size then b.size - 1 else pos).toNat + 1 := by
      have hlength := b.length_lt
      rw [UInt64.toNat_add]
      exact Nat.mod_eq_of_lt (by show _ + 1 < _; omega)
    dsimp only
    rw [hsucc, ← hstart]
    exact answers_rfindLoop b w hlast

/-! ## Places -/

/-- The indices at which the needle occurs.  Both searches are answered from this set: the least index in
range, or the greatest. -/
def occurrences (b w : SizedBuffer) : Set Nat := {i | w.buffer <+: b.buffer.drop i}

theorem lt_of_mem_occurrences (hw : w.buffer ≠ []) {i : Nat} (hi : i ∈ b.occurrences w) :
    i + w.buffer.length ≤ b.buffer.length ∧ i < b.buffer.length := by
  have hle := (show w.buffer <+: b.buffer.drop i from hi).length_le
  have hpos := List.length_pos_iff.mpr hw
  rw [List.length_drop] at hle
  omega

theorem find_eq_some_iff (hw : w.buffer ≠ []) {i : Nat} :
    BinaryBuffer.find b.buffer w.buffer = some i ↔ IsLeast (b.occurrences w) i := by
  rw [BinaryBuffer.find_eq_findSub hw, Search.findSub_eq_some_iff]
  constructor
  · rintro ⟨-, hi, hleast⟩
    exact ⟨hi, fun j hj => le_of_not_gt fun hlt => hleast j hlt hj⟩
  · rintro ⟨hi, hleast⟩
    exact ⟨(lt_of_mem_occurrences hw hi).2.le, hi, fun j hlt hj => absurd (hleast hj) (not_le.mpr hlt)⟩

/-- The downward loop stops at the greatest place up to its start. -/
theorem rfindFrom_eq_some_iff {s l : Bytes} : ∀ {n i : Nat},
    BinaryBuffer.rfindFrom l s n = some i ↔
      (i ≤ n ∧ s.length ≤ l.length - i ∧ s <+: l.drop i) ∧
        ∀ j, i < j → j ≤ n → s.length ≤ l.length - j → ¬ s <+: l.drop j
  | 0, i => by
    rw [BinaryBuffer.rfindFrom]
    constructor
    · intro h
      split_ifs at h with hfound
      cases h
      exact ⟨⟨le_refl 0, hfound.1, List.isPrefixOf_iff_prefix.mp hfound.2⟩, fun j hj hle => by omega⟩
    · rintro ⟨⟨hle, hfits, hs⟩, -⟩
      obtain rfl : i = 0 := Nat.le_zero.mp hle
      exact if_pos ⟨hfits, List.isPrefixOf_iff_prefix.mpr hs⟩
  | n + 1, i => by
    rw [BinaryBuffer.rfindFrom]
    by_cases hfound : s.length ≤ l.length - (n + 1) ∧ s <+: l.drop (n + 1)
    · rw [if_pos ⟨hfound.1, List.isPrefixOf_iff_prefix.mpr hfound.2⟩]
      constructor
      · rintro h
        cases h
        exact ⟨⟨le_refl _, hfound⟩, fun j hj hle => by omega⟩
      · rintro ⟨⟨hle, -⟩, hgreatest⟩
        by_cases hlt : i < n + 1
        · exact absurd hfound.2 (hgreatest (n + 1) hlt (le_refl _) hfound.1)
        · rw [show i = n + 1 by omega]
    · rw [if_neg fun h => hfound ⟨h.1, List.isPrefixOf_iff_prefix.mp h.2⟩, rfindFrom_eq_some_iff]
      constructor
      · rintro ⟨⟨hle, hi⟩, hgreatest⟩
        refine ⟨⟨by omega, hi⟩, fun j hj hjn hfits hs => ?_⟩
        by_cases hlt : j ≤ n
        · exact hgreatest j hj hlt hfits hs
        · obtain rfl : j = n + 1 := by omega
          exact hfound ⟨hfits, hs⟩
      · rintro ⟨⟨hle, hi⟩, hgreatest⟩
        refine ⟨⟨?_, hi⟩, fun j hj hjn => hgreatest j hj (by omega)⟩
        by_contra hnot
        obtain rfl : i = n + 1 := by omega
        exact hfound hi

theorem rfind_eq_some_iff (hw : w.buffer ≠ []) {p i : Nat} :
    BinaryBuffer.rfind b.buffer w.buffer p = some i ↔ IsGreatest {j ∈ b.occurrences w | j ≤ p} i := by
  have hpos := List.length_pos_iff.mpr hw
  have hgreatest : IsGreatest {j ∈ b.occurrences w | j ≤ p} i ↔
      (i ≤ p ∧ i ∈ b.occurrences w) ∧ ∀ j, i < j → j ≤ p → j ∉ b.occurrences w := by
    constructor
    · rintro ⟨⟨hi, hle⟩, hall⟩
      exact ⟨⟨hle, hi⟩, fun j hlt hj hmem => absurd (hall ⟨hmem, hj⟩) (not_le.mpr hlt)⟩
    · rintro ⟨⟨hle, hi⟩, hall⟩
      exact ⟨⟨hi, hle⟩, fun j hj => le_of_not_gt fun hlt => hall j hlt hj.2 hj.1⟩
  rw [hgreatest]
  unfold BinaryBuffer.rfind
  by_cases hshort : w.buffer.length = 0 ∨ w.buffer.length > b.buffer.length
  · rw [if_pos hshort]
    refine iff_of_false (fun h => nomatch h) ?_
    rintro ⟨⟨-, hi⟩, -⟩
    have hlt := lt_of_mem_occurrences hw hi
    omega
  · rw [if_neg hshort, rfindFrom_eq_some_iff]
    -- behind the buffer there is nothing, so that the start may be taken back to its end
    have hclamp : ∀ {j : Nat}, j ∈ b.occurrences w →
        (j ≤ (if p ≥ b.buffer.length then b.buffer.length - 1 else p) ↔ j ≤ p) := by
      intro j hj
      have hlt := lt_of_mem_occurrences hw hj
      split_ifs <;> omega
    constructor
    · rintro ⟨⟨hle, -, hi⟩, hall⟩
      refine ⟨⟨(hclamp hi).mp hle, hi⟩, fun j hlt hj hmem => ?_⟩
      have hfits := lt_of_mem_occurrences hw hmem
      exact hall j hlt ((hclamp hmem).mpr hj) (by omega) hmem
    · rintro ⟨⟨hle, hi⟩, hall⟩
      have hfits := lt_of_mem_occurrences hw hi
      exact ⟨⟨(hclamp hi).mpr hle, by omega, hi⟩,
        fun j hlt hj _ hmem => hall j hlt ((hclamp hmem).mp hj) hmem⟩

/-- What an answer stands for: a place, or `npos`. -/
theorem toNat_ofNat_of_mem (hw : w.buffer ≠ []) {i : Nat} (hi : i ∈ b.occurrences w) :
    (UInt64.ofNat i).toNat = i := by
  have hlt := lt_of_mem_occurrences hw hi
  have hlength := b.length_lt
  exact UInt64.toNat_ofNat_of_lt' (by unfold UInt64.size; omega)

/-- **The searches** answer the least place, and the greatest one up to a position, and read no byte behind
the buffer. -/
theorem search_spec (b w : SizedBuffer) (hw : w.buffer ≠ []) (pos : UInt64) :
    ((∀ i, IsLeast (b.occurrences w) i → (b.find w).toNat = i) ∧
        (b.occurrences w = ∅ → b.find w = npos) ∧ ∀ i ∈ b.findReads w, i < b.buffer.length) ∧
      (∀ i, IsGreatest {j ∈ b.occurrences w | j ≤ pos.toNat} i → (b.rfind w pos).toNat = i) ∧
        ({j ∈ b.occurrences w | j ≤ pos.toNat} = ∅ → b.rfind w pos = npos) ∧
          ∀ i ∈ b.rfindReads w pos, i < b.buffer.length := by
  obtain ⟨hfind, hfindReads⟩ := (answers_findM b w).run
  obtain ⟨hrfind, hrfindReads⟩ := (answers_rfindM b w pos).run
  refine ⟨⟨fun i hi => ?_, fun hnone => ?_, hfindReads⟩, fun i hi => ?_, fun hnone => ?_, hrfindReads⟩
  · rw [find, hfind, (find_eq_some_iff hw).mpr hi]
    exact toNat_ofNat_of_mem hw hi.1
  · have hfound : BinaryBuffer.find b.buffer w.buffer = none := by
      refine Option.eq_none_iff_forall_ne_some.mpr fun i hi => ?_
      exact absurd ((find_eq_some_iff hw).mp hi).1 (hnone ▸ Set.notMem_empty i)
    rw [find, hfind, hfound]
    rfl
  · rw [rfind, hrfind, (rfind_eq_some_iff hw).mpr hi]
    exact toNat_ofNat_of_mem hw hi.1.1
  · have hfound : BinaryBuffer.rfind b.buffer w.buffer pos.toNat = none := by
      refine Option.eq_none_iff_forall_ne_some.mpr fun i hi => ?_
      exact absurd ((rfind_eq_some_iff hw).mp hi).1 (hnone ▸ Set.notMem_empty i)
    rw [rfind, hrfind, hfound]
    rfl

/-- A line end that occurs twice, from the largest position. -/
theorem search_spec_lines :
    let b : SizedBuffer := ⟨bytes "a\r\nb\r\n", by decide⟩
    let w : SizedBuffer := ⟨crlf, by decide⟩
    b.find w = 1 ∧ b.rfind w npos = 4 ∧ ∀ i ∈ b.rfindReads w npos, i < 6 := by
  intro b w
  have hspec := search_spec b w (by decide) npos
  exact ⟨by decide +kernel, by decide +kernel, hspec.2.2.2⟩

end SizedBuffer
end Webserv
