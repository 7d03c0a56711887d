import Webserv.Bytes

/-!
# The lengths that are accepted

`sToContentLength` hands the C string of a header value or of a size line to `strtol` and looks at the end
pointer.  `strtol` skips blanks, a sign and in base 16 the prefix `0x`, and it leaves the end pointer of an
empty string on its terminator.

* `Dressed`: a numeral with everything that `strtol` skips before it.
* `strtol_of_dressed`, `dressed_of_strtol`: the strings that `strtol` reads to their end.
* `LengthExact`: what a function from strings to lengths should do.
* `lengthExact_iff`: the strings on which `sToContentLength` knows numerals from everything else.

## Why a grammar of what is skipped

The test for the end of the string is the only one the code makes, and it is passed by everything that
`strtol` can digest.  To say which strings these are, `Dressed` builds them up: blanks, a sign, a prefix,
digits.  The two directions are separate inductions.  A dressed numeral is read to its end, because each
skipping function stops where the next part begins.  Conversely a string that is read to its end is put
together from what each function has dropped; here the empty string is apart, which `strtol` does not read
and which passes the test all the same.

## Why the condition names two kinds

A string is judged rightly in two cases: it is a numeral, and then the number is right if it fits, or it is
none and does not come through.  The second is a matter of what stands in front of the first NUL, since the
C string ends there, and of the sign, since a negative value is refused.  Everything else is accepted
wrongly: a blank or a sign in front, a prefix, an empty value, a numeral with a NUL and anything behind it.
-/

namespace Webserv

/-! ## What `strtol` reads to the end -/

/-- The prefix of a hexadecimal number, or nothing; in base 10 there is no prefix. -/
def IsHexPrefix (base : Nat) (hex : Bytes) : Prop :=
  hex = [] ∨ base = 16 ∧ (hex = [48, 120] ∨ hex = [48, 88])

/-- A numeral with everything that `strtol` skips before it, and the value it gets. -/
inductive Dressed (base : Nat) : Bytes → Int → Prop where
  | positive {blanks sign hex digits : Bytes} {n : Nat} (hblanks : ∀ c ∈ blanks, isspace c = true)
      (hsign : sign = [] ∨ sign = [43]) (hhex : IsHexPrefix base hex)
      (hdigits : IsNumeral base digits n) : Dressed base (blanks ++ (sign ++ (hex ++ digits))) n
  | negative {blanks hex digits : Bytes} {n : Nat} (hblanks : ∀ c ∈ blanks, isspace c = true)
      (hhex : IsHexPrefix base hex) (hdigits : IsNumeral base digits n) :
      Dressed base (blanks ++ (45 :: (hex ++ digits))) (-n)

/-- A `long`, saturated. -/
def toLong (v : Int) : Int := max (-2 ^ 63) (min (2 ^ 63 - 1) v)

theorem IsNumeral.dressed {base : Nat} {str : Bytes} {n : Nat} (h : IsNumeral base str n) :
    Dressed base str n :=
  @Dressed.positive base [] [] [] str n (by simp) (Or.inl rfl) (Or.inl rfl) h

/-- The first byte of a numeral, or of its prefix, is not skipped as a blank or a sign. -/
theorem head_hex_append {base : Nat} {hex digits : Bytes} {n : Nat} (hhex : IsHexPrefix base hex)
    (hdigits : IsNumeral base digits n) :
    ∃ c s, hex ++ digits = c :: s ∧ isspace c = false ∧ c ≠ 45 ∧ c ≠ 43 := by
  rcases hhex with rfl | ⟨-, rfl | rfl⟩
  · obtain ⟨c, s, rfl⟩ := List.exists_cons_of_ne_nil hdigits.ne_nil
    obtain ⟨-, hspace, hminus, hplus, -⟩ := of_isBaseDigit (hdigits.digits c List.mem_cons_self)
    exact ⟨c, s, rfl, hspace, hminus, hplus⟩
  · exact ⟨48, 120 :: digits, rfl, by decide, by decide, by decide⟩
  · exact ⟨48, 88 :: digits, rfl, by decide, by decide, by decide⟩

/-- The prefix is skipped. -/
theorem skipHexPrefix_append {base : Nat} {hex digits : Bytes} {n : Nat} (hhex : IsHexPrefix base hex)
    (hdigits : IsNumeral base digits n) : skipHexPrefix base (hex ++ digits) = digits := by
  rcases hhex with rfl | ⟨rfl, hhex⟩
  · exact skipHexPrefix_of_digits hdigits.digits
  · obtain ⟨d, s, rfl⟩ := List.exists_cons_of_ne_nil hdigits.ne_nil
    have hd : isBaseDigit 16 d = true := hdigits.digits d List.mem_cons_self
    rcases hhex with rfl | rfl
    · exact if_pos ⟨rfl, rfl, Or.inl rfl, hd⟩
    · exact if_pos ⟨rfl, rfl, Or.inr rfl, hd⟩

/-- Blanks are skipped. -/
theorem dropWhile_blanks {blanks s : Bytes} {c : Byte} (hblanks : ∀ c ∈ blanks, isspace c = true)
    (hc : isspace c = false) : (blanks ++ c :: s).dropWhile isspace = c :: s := by
  rw [List.dropWhile_append_of_pos hblanks, List.dropWhile_cons_of_neg (by rw [hc]; exact Bool.false_ne_true)]

/-- What `strtol` makes of the digits. -/
theorem strtol_digits {base : Nat} {digits : Bytes} {n : Nat} (h : IsNumeral base digits n) (neg : Prop)
    [Decidable neg] (str : Bytes) :
    (if digits.takeWhile (isBaseDigit base) = [] then ((0 : Int), str)
      else (max (-2 ^ 63) (min (2 ^ 63 - 1)
          (if neg then -(digitsValue base (digits.takeWhile (isBaseDigit base)) : Int)
            else digitsValue base (digits.takeWhile (isBaseDigit base)))),
        digits.dropWhile (isBaseDigit base))) = (toLong (if neg then -(n : Int) else n), []) := by
  have hall : digits.takeWhile (isBaseDigit base) = digits := List.takeWhile_eq_self_iff.mpr h.digits
  have hnone : digits.dropWhile (isBaseDigit base) = [] := List.dropWhile_eq_nil_iff.mpr h.digits
  rw [hall, hnone, if_neg h.ne_nil, h.value]
  rfl

/-- A dressed numeral is read to its end.  Blanks, a sign and a prefix are taken, although a length has none
of them. -/
theorem strtol_of_dressed {base : Nat} {str : Bytes} {v : Int} (h : Dressed base str v) :
    strtol str base = (toLong v, []) := by
  cases h with
  | @positive blanks sign hex digits n hblanks hsign hhex hdigits =>
    obtain ⟨c, s, hcons, hspace, hminus, hplus⟩ := head_hex_append hhex hdigits
    have hskip := skipHexPrefix_append hhex hdigits
    rw [hcons] at hskip
    have hhead : ¬ ((c :: s).head? = some 45 ∨ (c :: s).head? = some 43) := by
      rw [List.head?_cons]
      exact fun hor => hor.elim (fun heq => hminus (Option.some.inj heq))
        fun heq => hplus (Option.some.inj heq)
    unfold strtol
    rw [hcons]
    rcases hsign with rfl | rfl
    · rw [List.nil_append, dropWhile_blanks hblanks hspace]
      dsimp only
      rw [if_neg hhead, hskip]
      rw [strtol_digits hdigits, if_neg fun h => hhead (Or.inl h)]
    · have hsign : ([43] ++ c :: s : Bytes) = 43 :: c :: s := rfl
      rw [hsign, dropWhile_blanks hblanks (by decide)]
      dsimp only
      rw [if_pos (Or.inr (List.head?_cons ..)), List.tail_cons, hskip, strtol_digits hdigits,
        if_neg (by simp)]
  | @negative blanks hex digits n hblanks hhex hdigits =>
    have hskip := skipHexPrefix_append hhex hdigits
    unfold strtol
    rw [dropWhile_blanks hblanks (by decide)]
    dsimp only
    rw [if_pos (Or.inl (List.head?_cons ..)), List.tail_cons, hskip, strtol_digits hdigits,
      if_pos (List.head?_cons ..)]

theorem takeWhile_isspace (s : Bytes) : ∀ c ∈ s.takeWhile isspace, isspace c = true :=
  fun _ hc => List.mem_takeWhile_imp hc

/-- What is left of the prefix. -/
theorem skipHexPrefix_cases (base : Nat) (s : Bytes) :
    ∃ hex, IsHexPrefix base hex ∧ s = hex ++ skipHexPrefix base s := by
  match s with
  | [] => exact ⟨[], Or.inl rfl, rfl⟩
  | [_] => exact ⟨[], Or.inl rfl, rfl⟩
  | [_, _] => exact ⟨[], Or.inl rfl, rfl⟩
  | a :: x :: d :: s =>
    by_cases hprefix : base = 16 ∧ a = 48 ∧ (x = 120 ∨ x = 88) ∧ isBaseDigit 16 d = true
    · have hskip : skipHexPrefix base (a :: x :: d :: s) = d :: s := if_pos hprefix
      obtain ⟨hbase, rfl, hx, -⟩ := hprefix
      rw [hskip]
      refine ⟨[48, x], Or.inr ⟨hbase, ?_⟩, rfl⟩
      rcases hx with rfl | rfl
      · exact Or.inl rfl
      · exact Or.inr rfl
    · have hskip : skipHexPrefix base (a :: x :: d :: s) = a :: x :: d :: s := if_neg hprefix
      rw [hskip]
      exact ⟨[], Or.inl rfl, rfl⟩

/-- A string that `strtol` reads to its end is empty, or a dressed numeral. -/
theorem dressed_of_strtol {base : Nat} {str : Bytes} (h : (strtol str base).2 = []) :
    str = [] ∨ ∃ v, Dressed base str v := by
  have hblanks := takeWhile_isspace str
  have hstr : str = str.takeWhile isspace ++ str.dropWhile isspace :=
    (List.takeWhile_append_dropWhile).symm
  -- the digits are everything after the sign and the prefix
  have hdigits : ∀ (t : Bytes) (v : Int),
      (if t.takeWhile (isBaseDigit base) = [] then ((0 : Int), str)
        else (v, t.dropWhile (isBaseDigit base))).2 = [] →
          str = [] ∨ IsNumeral base t (digitsValue base t) := by
    intro t v hend
    split_ifs at hend with hnil
    · exact Or.inl hend
    · have hall := List.dropWhile_eq_nil_iff.mp hend
      rw [List.takeWhile_eq_self_iff.mpr hall] at hnil
      exact Or.inr ⟨hnil, hall, rfl⟩
  unfold strtol at h
  dsimp only at h
  generalize str.takeWhile isspace = blanks at hblanks hstr
  generalize str.dropWhile isspace = s at h hstr
  refine (hdigits _ _ h).imp_right fun hnumeral => ?_
  rw [hstr]
  by_cases hminus : s.head? = some 45
  · obtain ⟨t, rfl⟩ := List.head?_eq_some_iff.mp hminus
    obtain ⟨hex, hhex, heq⟩ := skipHexPrefix_cases base t
    rw [if_pos (Or.inl hminus), List.tail_cons] at hnumeral
    rw [heq]
    exact ⟨_, .negative hblanks hhex hnumeral⟩
  by_cases hplus : s.head? = some 43
  · obtain ⟨t, rfl⟩ := List.head?_eq_some_iff.mp hplus
    obtain ⟨hex, hhex, heq⟩ := skipHexPrefix_cases base t
    rw [if_pos (Or.inr hplus), List.tail_cons] at hnumeral
    rw [heq]
    exact ⟨_, .positive hblanks (Or.inr rfl) hhex hnumeral⟩
  · obtain ⟨hex, hhex, heq⟩ := skipHexPrefix_cases base s
    rw [if_neg fun hor => hor.elim hminus hplus] at hnumeral
    rw [heq]
    exact ⟨_, .positive hblanks (Or.inl rfl) hhex hnumeral⟩

/-! ## What is accepted -/

/-- The base of the numerals. -/
abbrev lengthBase (chunked : Bool) : Nat := if chunked then 16 else 10

/-- `strtol` reads the string to its end, and its value is not negative. -/
def ReadsToEnd (base : Nat) (str : Bytes) : Prop := str = [] ∨ ∃ v, 0 ≤ v ∧ Dressed base str v

theorem toLong_nonneg_iff {v : Int} : 0 ≤ toLong v ↔ 0 ≤ v := by
  unfold toLong
  omega

theorem readsToEnd_iff (base : Nat) (str : Bytes) :
    ReadsToEnd base str ↔ (strtol str base).2 = [] ∧ 0 ≤ (strtol str base).1 := by
  constructor
  · rintro (rfl | ⟨v, hv, hdressed⟩)
    · exact ⟨rfl, Int.le_refl 0⟩
    · rw [strtol_of_dressed hdressed]
      exact ⟨rfl, toLong_nonneg_iff.mpr hv⟩
  · rintro ⟨hend, hvalue⟩
    refine (dressed_of_strtol hend).imp_right fun ⟨v, hdressed⟩ => ⟨v, ?_, hdressed⟩
    rw [strtol_of_dressed hdressed] at hvalue
    exact toLong_nonneg_iff.mp hvalue

/-- Only a string that is read to its end has a length. -/
theorem sToContentLength_eq_invalid_iff (str : Bytes) (chunked : Bool) :
    sToContentLength str chunked = contentLengthInvalid ↔ ¬ ReadsToEnd (lengthBase chunked) (cstr str) := by
  rw [readsToEnd_iff]
  unfold sToContentLength lengthBase
  generalize strtol (cstr str) (if chunked then 16 else 10) = r
  dsimp only
  split_ifs with hinvalid hlarge
  · refine iff_of_true rfl ?_
    rintro ⟨hend, hvalue⟩
    exact hinvalid.elim (fun hne => hne hend) fun hlt => by omega
  · refine iff_of_false (by decide) (not_not.mpr ?_)
    rw [not_or, not_not] at hinvalid
    exact ⟨hinvalid.1, by omega⟩
  · rw [not_or, not_not] at hinvalid
    refine iff_of_false ?_ (not_not.mpr ⟨hinvalid.1, by omega⟩)
    unfold contentLengthInvalid
    omega

/-- A numeral gets its number, if that fits in an `int`, and otherwise the mark of a length that is too
large. -/
theorem sToContentLength_numeral {str : Bytes} {chunked : Bool} {n : Nat}
    (h : IsNumeral (lengthBase chunked) str n) :
    sToContentLength str chunked = if (n : Int) ≤ int32Max then (n : Int) else contentLengthTooLarge := by
  have hlong : toLong n = (min (2 ^ 63 - 1) n : Nat) := by
    unfold toLong
    omega
  unfold sToContentLength
  rw [h.cstr_eq, show strtol str (if chunked then 16 else 10) = _ from strtol_of_dressed h.dressed, hlong]
  have hvalid : ¬ (([] : Bytes) ≠ [] ∨ ((min (2 ^ 63 - 1) n : Nat) : Int) < 0) := fun hor =>
    hor.elim (fun hne => hne rfl) fun hlt => by omega
  dsimp only
  rw [if_neg hvalid]
  unfold int32Max
  by_cases hfits : (n : Int) ≤ 2 ^ 31 - 1
  · rw [if_pos hfits, if_neg (by omega)]
    omega
  · rw [if_neg hfits, if_pos (by omega)]

/-- `sToContentLength` gives the number of a numeral, and knows numerals from everything else. -/
structure LengthExact (str : Bytes) (chunked : Bool) : Prop where
  value : ∀ n : Nat, (n : Int) ≤ int32Max →
    (sToContentLength str chunked = n ↔ IsNumeral (lengthBase chunked) str n)
  tooLarge : sToContentLength str chunked = contentLengthTooLarge ↔
    ∃ n : Nat, IsNumeral (lengthBase chunked) str n ∧ int32Max < n
  invalid : sToContentLength str chunked = contentLengthInvalid ↔
    ¬ ∃ n, IsNumeral (lengthBase chunked) str n

/-- **The strings that are judged rightly** are the numerals, and the strings whose part before the first
NUL `strtol` does not read to its end, or reads as a negative number. -/
theorem lengthExact_iff (str : Bytes) (chunked : Bool) :
    LengthExact str chunked ↔ (∃ n, IsNumeral (lengthBase chunked) str n) ∨
      ¬ ReadsToEnd (lengthBase chunked) (cstr str) := by
  constructor
  · intro h
    by_cases hnumeral : ∃ n, IsNumeral (lengthBase chunked) str n
    · exact Or.inl hnumeral
    · exact Or.inr ((sToContentLength_eq_invalid_iff str chunked).mp (h.invalid.mpr hnumeral))
  · intro h
    by_cases hnumeral : ∃ n, IsNumeral (lengthBase chunked) str n
    · obtain ⟨n, hn⟩ := hnumeral
      have hvalue := sToContentLength_numeral hn
      have hunique : ∀ m, IsNumeral (lengthBase chunked) str m ↔ m = n := fun m =>
        ⟨fun hm => hm.value.symm.trans hn.value, fun hm => hm ▸ hn⟩
      unfold int32Max contentLengthTooLarge at hvalue
      by_cases hfits : (n : Int) ≤ 2 ^ 31 - 1
      · rw [if_pos hfits] at hvalue
        constructor
        · intro m _
          rw [hvalue, hunique]
          omega
        · unfold int32Max contentLengthTooLarge
          rw [hvalue]
          refine iff_of_false (by omega) ?_
          rintro ⟨m, hm, hlarge⟩
          rw [(hunique m).mp hm] at hlarge
          omega
        · unfold contentLengthInvalid
          rw [hvalue]
          exact iff_of_false (by omega) (not_not.mpr ⟨n, hn⟩)
      · rw [if_neg hfits] at hvalue
        constructor
        · intro m hm
          unfold int32Max at hm
          rw [hvalue, hunique]
          exact iff_of_false (by omega) (by omega)
        · exact iff_of_true hvalue ⟨n, hn, Int.not_le.mp hfits⟩
        · rw [hvalue]
          exact iff_of_false (by decide) (not_not.mpr ⟨n, hn⟩)
    · have hinvalid := (sToContentLength_eq_invalid_iff str chunked).mpr (h.resolve_left hnumeral)
      constructor
      · intro m _
        rw [hinvalid]
        refine iff_of_false ?_ fun hm => hnumeral ⟨m, hm⟩
        unfold contentLengthInvalid
        omega
      · rw [hinvalid]
        exact iff_of_false (by decide) fun ⟨n, hn, _⟩ => hnumeral ⟨n, hn⟩
      · exact iff_of_true hinvalid hnumeral

/-- A blank, a sign, a prefix, an empty value and what follows a NUL all pass. -/
theorem not_lengthExact :
    sToContentLength (bytes " +5") false = 5 ∧ ¬ LengthExact (bytes " +5") false ∧
      sToContentLength (bytes "0x1F") true = 31 ∧ ¬ LengthExact (bytes "0x1F") true ∧
      sToContentLength [] false = 0 ∧ ¬ LengthExact [] false ∧
      sToContentLength [53, 0, 65] false = 5 ∧ ¬ LengthExact [53, 0, 65] false := by
  have hnot : ∀ (str : Bytes) (chunked : Bool), sToContentLength str chunked ≠ contentLengthInvalid →
      (str = [] ∨ ∃ c ∈ str, isBaseDigit (lengthBase chunked) c = false) → ¬ LengthExact str chunked := by
    intro str chunked hvalid hbad hexact
    obtain ⟨n, hn⟩ := not_not.mp fun hnone => hvalid (hexact.invalid.mpr hnone)
    rcases hbad with hnil | ⟨c, hc, hdigit⟩
    · exact hn.ne_nil hnil
    · rw [hn.digits c hc] at hdigit
      cases hdigit
  exact ⟨by decide, hnot _ _ (by decide) (Or.inr ⟨32, by decide, by decide⟩),
    by decide, hnot _ _ (by decide) (Or.inr ⟨120, by decide, by decide⟩),
    by decide, hnot _ _ (by decide) (Or.inl rfl),
    by decide, hnot _ _ (by decide) (Or.inr ⟨0, by decide, by decide⟩)⟩

end Webserv
