import Mathlib.Data.List.Basic
import Mathlib.Data.List.TakeWhile
import Mathlib.Data.Int.Basic
import Mathlib.Algebra.Group.Int.Defs
import Mathlib.Algebra.Group.Nat.Defs
import Mathlib.Data.List.Induction

/-!
# Byte strings and the helpers of `ft`

A `std::string` is a list of bytes, embedded NULs included.  What a C function sees of it is `cstr`, the
bytes before the first NUL.  The conversions follow `ft.cpp` and `utils.cpp`.

* `cstr`: `c_str()` as the system calls read it.
* `toInt32`, `toSize`, `toUInt32`: the conversions to machine integers that the source does.
* `strtol`: the C function, which the lengths, the ports and the limits are read with.
* `sToContentLength`, `decodeURI`, `numToStr`: the helpers of the source.
* `IsNumeral`, `decimal`: what a number looks like, for the statements.

## Why the integers are mathematical

The source mixes `int32_t`, `size_t`, `long` and `std::string::size_type`, and some of its errors are
conversions between them: a length that wraps, a `-1` that becomes the largest size.  Here an integer is an
`Int` or a `Nat`, and every place where the source narrows one is a call of `toInt32`, `toSize` or
`toUInt32`.  A reader of a definition sees where a value may wrap, and a proof has to show that it does not
(`toInt32_of_range`), or to say what follows when it does.

## Why the numerals are a section of their own

`strtol` reads more than numerals: blanks, a sign, a prefix in base 16, and nothing at all as 0.
`IsNumeral` says what the specifications mean by a number, with no reference to `strtol`, and
`strtol_of_isNumeral` is the half that all of them need, that a numeral is read to its end.  `decimal` does
the same for the other direction: the program writes numbers with `numToStr`, and what a response should
contain is stated with `decimal`.  The two differ on a numeral with a zero in front, which is no decimal
number of anything (`decimal_digitsValue_iff`); a status code of a CGI may be one.
-/

namespace Webserv

abbrev Byte := UInt8
abbrev Bytes := List UInt8

/-- A string literal of the source, in its UTF-8 encoding. -/
def bytes (s : String) : Bytes := s.toList.flatMap String.utf8EncodeChar

/-! ## Characters -/

abbrev slash : Byte := 47
abbrev dot : Byte := 46
abbrev percent : Byte := 37
abbrev question : Byte := 63
abbrev space : Byte := 32
abbrev colon : Byte := 58
abbrev cr : Byte := 13
abbrev lf : Byte := 10

/-- The line end `"\r\n"`. -/
abbrev crlf : Bytes := [cr, lf]

/-- `std::isspace` in the C locale: the blank and the five control characters from the tab on. -/
def isspace (c : Byte) : Bool := c = 32 || (9 ≤ c && c ≤ 13)
/-- `std::isdigit`: the characters `0` to `9`, in every locale. -/
def isdigit (c : Byte) : Bool := 48 ≤ c && c ≤ 57
/-- `std::isalpha` in the C locale, which the program never changes. -/
def isalpha (c : Byte) : Bool := (65 ≤ c && c ≤ 90) || (97 ≤ c && c ≤ 122)

/-- `c_str()` as a C function reads it: up to the first NUL.  A name with a NUL in it is a shorter name for
the kernel than for the program. -/
def cstr (s : Bytes) : Bytes := s.takeWhile (· ≠ 0)

/-- The string is all that `c_str()` shows. -/
theorem cstr_eq_self {s : Bytes} (h : (0 : Byte) ∉ s) : cstr s = s :=
  List.takeWhile_eq_self_iff.mpr fun _ hc => decide_eq_true fun h0 => h (h0 ▸ hc)

/-! ## Machine integers -/

/-- Conversion to `int32_t` or `int`: the value modulo 2^32 that is in range, as the compilers of the source
define it. -/
def toInt32 (z : Int) : Int := Int.bmod z (2 ^ 32)

/-- Conversion to `size_t`, where a negative number becomes a very large one. -/
def toSize (z : Int) : Nat := (z % 2 ^ 64).toNat

/-- Conversion to `uint32_t`, as it is done to line numbers and matched lengths. -/
def toUInt32 (z : Int) : Nat := (z % 2 ^ 32).toNat

/-- `std::numeric_limits<int32_t>::max()`. -/
abbrev int32Max : Int := 2 ^ 31 - 1

/-- A number in range is converted to itself: what a proof shows where the source narrows a number. -/
theorem toInt32_of_range {z : Int} (h₁ : -2 ^ 31 ≤ z) (h₂ : z ≤ int32Max) : toInt32 z = z := by
  unfold int32Max at h₂
  unfold toInt32
  rw [Int.bmod_def]
  split <;> omega

theorem toInt32_le (z : Int) : toInt32 z ≤ int32Max := by
  unfold toInt32 int32Max
  rw [Int.bmod_def]
  split <;> omega

theorem toSize_of_range {z : Int} (h₁ : 0 ≤ z) (h₂ : z < 2 ^ 64) : toSize z = z.toNat := by
  unfold toSize
  rw [Int.emod_eq_of_lt h₁ h₂]

/-! ## `ft` -/

/-- `ft::numToStr`.  The callers convert to `int`. -/
def numToStr (num : Int) : Bytes := bytes (toString num)

/-- `ft::hexToDec`: 0 for anything that is not a digit, so that a caller cannot tell `0` from garbage. -/
def hexToDec (c : Byte) : Nat :=
  if 48 ≤ c ∧ c ≤ 57 then c.toNat - 48
  else if 65 ≤ c ∧ c ≤ 70 then c.toNat - 65 + 10
  else if 97 ≤ c ∧ c ≤ 102 then c.toNat - 97 + 10
  else 0

/-- `ft::decodeURI`: a `%` with at least two bytes after it takes them as digits, whatever they
are. -/
def decodeURI : Bytes → Bytes
  | c :: a :: b :: uri =>
    if c = percent then UInt8.ofNat (hexToDec a * 16 + hexToDec b) :: decodeURI uri
    else c :: decodeURI (a :: b :: uri)
  | uri => uri

/-- The value of a digit in a base up to 16. -/
def digitValue (c : Byte) : Option Nat :=
  if isdigit c then some (c.toNat - 48)
  else if 65 ≤ c ∧ c ≤ 70 then some (c.toNat - 65 + 10)
  else if 97 ≤ c ∧ c ≤ 102 then some (c.toNat - 97 + 10)
  else none

/-- A character that `strtol` takes as a digit in this base. -/
def isBaseDigit (base : Nat) (c : Byte) : Bool :=
  match digitValue c with
  | some v => v < base
  | none => false

/-- The number that a string of digits denotes, from the first digit on. -/
def digitsValue (base : Nat) (digits : Bytes) : Nat :=
  digits.foldl (fun acc c => acc * base + (digitValue c).getD 0) 0

/-- The `0x` that `strtol` skips in base 16 when a digit follows it. -/
def skipHexPrefix (base : Nat) : Bytes → Bytes
  | a :: x :: d :: s =>
    if base = 16 ∧ a = 48 ∧ (x = 120 ∨ x = 88) ∧ isBaseDigit 16 d then d :: s
    else a :: x :: d :: s
  | s => s

/-- `std::strtol` on a C string: the value, saturated to a `long`, and what `*endptr` points at.
Blanks, one sign and the prefix are skipped; without any digit nothing is consumed. -/
def strtol (str : Bytes) (base : Nat) : Int × Bytes :=
  let s := str.dropWhile isspace
  let neg := s.head? = some 45
  let s := if s.head? = some 45 ∨ s.head? = some 43 then s.tail else s
  let s := skipHexPrefix base s
  let digits := s.takeWhile (isBaseDigit base)
  if digits = [] then (0, str)
  else
    let v : Int := digitsValue base digits
    let v := if neg then -v else v
    (max (-2 ^ 63) (min (2 ^ 63 - 1) v), s.dropWhile (isBaseDigit base))

/-! ## Content lengths -/

/-- `CONTENT_LENGTH_INVALID`: what `sToContentLength` returns where the text is no number. -/
abbrev contentLengthInvalid : Int := -2
/-- `CONTENT_LENGTH_TOO_LARGE`.  The chunk reader uses the same `-1` for a size that is still to come. -/
abbrev contentLengthTooLarge : Int := -1

/-- `sToContentLength`, with its two answers for what is no length and for what is too large. -/
def sToContentLength (str : Bytes) (chunked : Bool) : Int :=
  let r := strtol (cstr str) (if chunked then 16 else 10)
  if r.2 ≠ [] ∨ r.1 < 0 then contentLengthInvalid
  else if r.1 > int32Max then contentLengthTooLarge
  else r.1

/-- No length is above `int32Max`: what is larger is one of the two negative numbers. -/
theorem sToContentLength_le (str : Bytes) (chunked : Bool) :
    sToContentLength str chunked ≤ int32Max := by
  unfold sToContentLength contentLengthInvalid contentLengthTooLarge int32Max
  dsimp only
  split
  · omega
  · split <;> omega

example : sToContentLength (bytes "1aF") true = 431 := by decide

/-- Blanks, a sign and the empty line all pass. -/
example : sToContentLength (bytes " +5") false = 5 ∧ sToContentLength [] true = 0 := by decide

/-! ## Numerals -/

/-- A numeral without sign or prefix: digits of the base, at least one, and their value. -/
structure IsNumeral (base : Nat) (str : Bytes) (n : Nat) : Prop where
  ne_nil : str ≠ []
  digits : ∀ c ∈ str, isBaseDigit base c = true
  value : digitsValue base str = n

/-- A digit is none of the characters that `strtol` skips. -/
theorem of_isBaseDigit {base : Nat} {c : Byte} (h : isBaseDigit base c = true) :
    c ≠ 0 ∧ isspace c = false ∧ c ≠ 45 ∧ c ≠ 43 ∧ c ≠ 120 ∧ c ≠ 88 := by
  unfold isBaseDigit at h
  have hsome : digitValue c ≠ none := by
    intro hnone
    rw [hnone] at h
    cases h
  refine ⟨?_, ?_, ?_, ?_, ?_, ?_⟩
  · rintro rfl
    exact hsome (by decide)
  · refine Bool.eq_false_iff.mpr fun hspace => hsome ?_
    simp only [isspace, Bool.or_eq_true, Bool.and_eq_true, decide_eq_true_eq] at hspace
    rcases hspace with rfl | ⟨-, hle⟩
    · decide
    · have hlarge : ∀ k : Byte, 13 < k.toNat → ¬ k ≤ c := by
        intro k hk hkc
        have h₁ : k.toNat ≤ c.toNat := hkc
        have h₂ : c.toNat ≤ 13 := hle
        omega
      simp [digitValue, isdigit, hlarge]
  · rintro rfl
    exact hsome (by decide)
  · rintro rfl
    exact hsome (by decide)
  · rintro rfl
    exact hsome (by decide)
  · rintro rfl
    exact hsome (by decide)

theorem skipHexPrefix_of_digits {base : Nat} {str : Bytes} (h : ∀ c ∈ str, isBaseDigit base c = true) :
    skipHexPrefix base str = str := by
  match str, h with
  | [], _ => rfl
  | [_], _ => rfl
  | [_, _], _ => rfl
  | a :: x :: d :: s, h =>
    obtain ⟨-, -, -, -, hlower, hupper⟩ := of_isBaseDigit (h x (by simp))
    exact if_neg fun hprefix => hprefix.2.2.1.elim hlower hupper

/-- `strtol` reads a numeral to its end. -/
theorem strtol_of_isNumeral {base : Nat} {str : Bytes} {n : Nat} (h : IsNumeral base str n)
    (hn : (n : Int) ≤ int32Max) : strtol str base = ((n : Int), []) := by
  have hall : str.takeWhile (isBaseDigit base) = str :=
    List.takeWhile_eq_self_iff.mpr h.digits
  have hnone : str.dropWhile (isBaseDigit base) = [] := List.dropWhile_eq_nil_iff.mpr h.digits
  obtain ⟨c, s, hcons⟩ := List.exists_cons_of_ne_nil h.ne_nil
  obtain ⟨-, hspace, hminus, hplus, -⟩ := of_isBaseDigit (h.digits c (by rw [hcons]; simp))
  have hblank : str.dropWhile isspace = str := by
    rw [hcons, List.dropWhile_cons_of_neg (by rw [hspace]; simp)]
  have hsign : str.head? ≠ some 45 ∧ str.head? ≠ some 43 := by
    rw [hcons, List.head?_cons]
    exact ⟨fun heq => hminus (Option.some.inj heq), fun heq => hplus (Option.some.inj heq)⟩
  unfold strtol
  dsimp only
  have hunsigned : ¬ (str.head? = some 45 ∨ str.head? = some 43) := fun hor => hor.elim hsign.1 hsign.2
  rw [hblank]
  simp only [if_neg hunsigned, skipHexPrefix_of_digits h.digits, hall, hnone, if_neg h.ne_nil, h.value,
    if_neg hsign.1]
  unfold int32Max at hn
  have hclamp : max (-2 ^ 63) (min (2 ^ 63 - 1) (n : Int)) = n := by omega
  rw [hclamp]

/-- A numeral has no NUL, so that it is what `c_str()` shows. -/
theorem IsNumeral.cstr_eq {base : Nat} {str : Bytes} {n : Nat} (h : IsNumeral base str n) :
    cstr str = str :=
  cstr_eq_self fun hzero => (of_isBaseDigit (h.digits 0 hzero)).1 rfl

/-- A numeral of a size that fits is read as its number.  The senders of bodies announce their lengths in
this form. -/
theorem sToContentLength_of_isNumeral {str : Bytes} {chunked : Bool} {n : Nat}
    (h : IsNumeral (if chunked then 16 else 10) str n) (hn : (n : Int) ≤ int32Max) :
    sToContentLength str chunked = n := by
  unfold sToContentLength
  dsimp only
  rw [h.cstr_eq, strtol_of_isNumeral h hn]
  dsimp only
  rw [if_neg (by simp), if_neg (by omega)]

/-! ## Decimal numbers -/

/-- A natural number in decimal. -/
def decimal (n : Nat) : Bytes := bytes (Nat.repr n)

/-- Two literals with the same encoding are the same, so that a statement about a text is one about its
bytes. -/
theorem bytes_inj {s t : String} : bytes s = bytes t ↔ s = t := by
  refine ⟨fun h => ?_, fun h => congrArg bytes h⟩
  have hbytes : s.toList.utf8Encode = t.toList.utf8Encode := congrArg List.toByteArray h
  rw [String.utf8Encode_toList, String.utf8Encode_toList] at hbytes
  exact String.toByteArray_inj.mp hbytes

theorem numToStr_natCast (n : Nat) : numToStr n = decimal n := rfl

/-- No other number is written like a natural number: the digits have its value, and a minus is no digit. -/
theorem numToStr_eq_decimal_iff {z : Int} {n : Nat} : numToStr z = decimal n ↔ z = n := by
  refine ⟨fun h => ?_, fun h => by rw [h, numToStr_natCast]⟩
  have htext := congrArg String.toList (bytes_inj.mp h)
  rw [Nat.toList_repr] at htext
  cases z with
  | ofNat m =>
    have hdigits : (toString (Int.ofNat m)).toList = Nat.toDigits 10 m := Nat.toList_repr
    rw [hdigits] at htext
    have hvalue := congrArg (fun ds => Nat.ofDigitChars 10 ds 0) htext
    rw [Nat.ofDigitChars_ten_toDigits, Nat.ofDigitChars_ten_toDigits] at hvalue
    rw [hvalue]
    rfl
  | negSucc m =>
    have hminus : '-' ∈ (toString (Int.negSucc m)).toList := by
      have hrepr : toString (Int.negSucc m) = "-" ++ toString (m + 1) := rfl
      rw [hrepr, String.toList_append]
      exact List.mem_append_left _ List.mem_cons_self
    rw [htext] at hminus
    exact absurd (Nat.isDigit_of_mem_toDigits (by decide) (by decide) hminus) (by decide)

/-- A digit is one byte. -/
theorem utf8EncodeChar_of_isDigit {d : Char} (h : d.isDigit = true) :
    ∃ c : Byte, String.utf8EncodeChar d = [c] ∧ isdigit c = true := by
  have hall : ∀ k < 58, 48 ≤ k → String.utf8EncodeChar (Char.ofNat k) = [UInt8.ofNat k] ∧
      isdigit (UInt8.ofNat k) = true := by decide
  have hbounds : 48 ≤ d.toNat ∧ d.toNat ≤ 57 := by
    rw [Char.isDigit, Bool.and_eq_true, decide_eq_true_iff, decide_eq_true_iff] at h
    exact h
  have hdigit := hall d.toNat (by omega) hbounds.1
  rw [Char.ofNat_toNat] at hdigit
  exact ⟨_, hdigit⟩

theorem isdigit_of_mem_decimal {n : Nat} {c : Byte} (h : c ∈ decimal n) : isdigit c = true := by
  rw [decimal, bytes, Nat.toList_repr] at h
  obtain ⟨d, hd, hc⟩ := List.mem_flatMap.mp h
  obtain ⟨c', hencode, hdigit⟩ :=
    utf8EncodeChar_of_isDigit (Nat.isDigit_of_mem_toDigits (by decide) (by decide) hd)
  rw [hencode] at hc
  obtain rfl := List.mem_singleton.mp hc
  exact hdigit

/-- A decimal number of more than one digit is that of the other digits, and the last one. -/
theorem decimal_concat {n d : Nat} (hn : 0 < n) (hd : d < 10) :
    decimal (10 * n + d) = decimal n ++ decimal d := by
  unfold decimal bytes
  rw [Nat.toList_repr, Nat.toList_repr, Nat.toList_repr,
    ← Nat.toDigits_append_toDigits (by decide) hn hd, List.flatMap_append]

/-- The decimal number of one digit is that digit: the start of the induction from the right. -/
theorem decimal_of_isdigit {d : Byte} (hd : isdigit d = true) : decimal (d.toNat - 48) = [d] := by
  have hall : ∀ k < 58, 48 ≤ k → decimal (k - 48) = [UInt8.ofNat k] := by decide
  rw [isdigit, Bool.and_eq_true, decide_eq_true_iff, decide_eq_true_iff] at hd
  have hlow : 48 ≤ d.toNat := hd.1
  have hhigh : d.toNat ≤ 57 := hd.2
  simpa using hall d.toNat (by omega) hlow

/-- A number above 0 does not begin with the digit 0. -/
theorem head?_decimal {n : Nat} (hn : 0 < n) : ∃ c, (decimal n).head? = some c ∧ c ≠ 48 := by
  induction n using Nat.strong_induction_on with
  | _ n ih =>
    by_cases hlt : n < 10
    · have hall : ∀ n < 10, 0 < n → ∃ c ∈ (decimal n).head?, c ≠ 48 := by decide
      exact hall n hlt hn
    · obtain ⟨c, hhead, hc⟩ := ih (n / 10) (by omega) (by omega)
      have hsplit : n = 10 * (n / 10) + n % 10 := by omega
      refine ⟨c, ?_, hc⟩
      rw [hsplit, decimal_concat (by omega) (Nat.mod_lt n (by decide)), List.head?_append, hhead]
      rfl

/-- The value of digits, read from the right, as `decimal_concat` writes them. -/
theorem digitsValue_concat (s : Bytes) {d : Byte} (hd : isdigit d = true) :
    digitsValue 10 (s ++ [d]) = 10 * digitsValue 10 s + (d.toNat - 48) := by
  have hvalue : (digitValue d).getD 0 = d.toNat - 48 := by
    rw [digitValue, if_pos hd]
    rfl
  rw [digitsValue, List.foldl_append, List.foldl_cons, List.foldl_nil, hvalue, Nat.mul_comm]
  rfl

/-- Digits are the decimal number of their value, unless the first of several is a 0. -/
theorem decimal_digitsValue_iff {s : Bytes} (hne : s ≠ []) (hdigits : ∀ c ∈ s, isdigit c = true) :
    decimal (digitsValue 10 s) = s ↔ (1 < s.length → s.head? ≠ some 48) := by
  constructor
  · intro heq hlength hzero
    by_cases hpos : 0 < digitsValue 10 s
    · obtain ⟨c, hhead, hc⟩ := head?_decimal hpos
      rw [heq, hzero] at hhead
      exact hc (Option.some.inj hhead).symm
    · rw [Nat.eq_zero_of_not_pos hpos] at heq
      have hone : (decimal 0).length = 1 := by decide
      rw [← heq, hone] at hlength
      exact Nat.lt_irrefl 1 hlength
  · intro hhead
    induction s using List.reverseRecOn with
    | nil => exact absurd rfl hne
    | append_singleton s d ih =>
      have hd : isdigit d = true := hdigits d (by simp)
      rw [digitsValue_concat s hd]
      by_cases hnil : s = []
      · rw [hnil]
        exact (congrArg decimal (Nat.zero_add _)).trans (decimal_of_isdigit hd)
      · have hfirst : s.head? ≠ some 48 := by
          have hlong : 1 < (s ++ [d]).length := by
            rw [List.length_append, List.length_singleton]
            exact Nat.succ_lt_succ (List.length_pos_iff.mpr hnil)
          simpa [List.head?_append_of_ne_nil _ hnil] using hhead hlong
        have hself := ih hnil (fun c hc => hdigits c (List.mem_append_left _ hc)) fun _ => hfirst
        have hpos : 0 < digitsValue 10 s := by
          refine Nat.pos_of_ne_zero fun hzero => hfirst ?_
          rw [← hself, hzero]
          decide
        have hsmall : d.toNat - 48 < 10 := by
          have hhigh : d.toNat ≤ 57 := by
            rw [isdigit, Bool.and_eq_true, decide_eq_true_iff, decide_eq_true_iff] at hd
            exact hd.2
          omega
        rw [decimal_concat hpos hsmall, hself, decimal_of_isdigit hd]

end Webserv
