import Webserv.RoutePaths

/-!
# Percent-decoding

`decodeURI` takes any two bytes behind a `%` for digits, and `hexToDec` gives 0 for what is none.  So a
malformed escape becomes one byte, where it should have stayed as it is, and `%zz` becomes a NUL.

* `decodeReference`: escapes are decoded, and all other bytes are copied.
* `decodeURI_of_encodes`: what was encoded is decoded again.
* `exists_origin`: the place that a decoded byte comes from.
* `decodesRight_iff`: the strings that are decoded as they should be.

## Why a reference decoder

An encoding is a relation: any byte may be escaped, and a `%` has to be.  A decoder should undo all
encodings of a string, which leaves open what it does with a string that encodes nothing.  `decodeReference`
fills this in the usual way, by copying what is no escape, and the comparison with it is what goes wrong for
malformed escapes.  The two agree on a string exactly when every `%` with two bytes behind it has two digits
there; a `%` at the very end is copied by both.

## Why the origin of a byte matters

A NUL in a path ends it for the kernel, so it is worth knowing where one can come from.  `exists_origin`
takes a decoded string apart at one byte, and finds the place in the source: this byte itself, or an escape.
With digits in all escapes the only escape that gives a NUL is `%00`.  Without, any two letters behind a `%`
that are no digits give one, and nothing in the target shows it.
-/

namespace Webserv

/-! ## Digits -/

/-- A hexadecimal digit, in either case. -/
def isHexDigit (c : Byte) : Bool := (digitValue c).isSome

theorem hexToDec_eq (c : Byte) : hexToDec c = (digitValue c).getD 0 := by
  unfold hexToDec digitValue isdigit
  simp only [Bool.and_eq_true, decide_eq_true_eq]
  split_ifs <;> rfl

/-- The ranges of the digits. -/
theorem digitValue_eq_some_iff {c : Byte} {x : Nat} :
    digitValue c = some x ↔
      (48 ≤ c.toNat ∧ c.toNat ≤ 57 ∧ x + 48 = c.toNat) ∨
        (65 ≤ c.toNat ∧ c.toNat ≤ 70 ∧ x + 55 = c.toNat) ∨ 97 ≤ c.toNat ∧ c.toNat ≤ 102 ∧ x + 87 = c.toNat := by
  unfold digitValue isdigit
  simp only [Bool.and_eq_true, decide_eq_true_eq, UInt8.le_iff_toNat_le, UInt8.reduceToNat]
  split_ifs <;> simp only [Option.some.injEq, false_iff] <;> omega

theorem digitValue_lt {c : Byte} {x : Nat} (h : digitValue c = some x) : x < 16 := by
  rw [digitValue_eq_some_iff] at h
  omega

theorem hexToDec_of_not_isHexDigit {c : Byte} (h : ¬ isHexDigit c = true) : hexToDec c = 0 := by
  rw [isHexDigit, Option.not_isSome_iff_eq_none] at h
  rw [hexToDec_eq, h, Option.getD_none]

theorem ne_percent_of_isHexDigit {c : Byte} (h : isHexDigit c = true) : c ≠ percent := by
  rintro rfl
  cases h

/-! ## The decoder -/

/-- Escapes are decoded, and all other bytes are copied, a `%` without two digits behind it among them. -/
def decodeReference : Bytes → Bytes
  | c :: a :: b :: uri =>
    if c = percent then
      match digitValue a, digitValue b with
      | some x, some y => UInt8.ofNat (x * 16 + y) :: decodeReference uri
      | _, _ => c :: decodeReference (a :: b :: uri)
    else c :: decodeReference (a :: b :: uri)
  | uri => uri

/-- `u` is a percent-encoding of `s`: any of its bytes are escaped, and every `%` is. -/
inductive Encodes : Bytes → Bytes → Prop where
  | nil : Encodes [] []
  | literal {c : Byte} {s u : Bytes} (hc : c ≠ percent) (h : Encodes s u) : Encodes (c :: s) (c :: u)
  | escaped {a b : Byte} {x y : Nat} {s u : Bytes} (ha : digitValue a = some x) (hb : digitValue b = some y)
      (h : Encodes s u) : Encodes (UInt8.ofNat (x * 16 + y) :: s) (percent :: a :: b :: u)

/-- Every `%` with two bytes after it has two digits after it. -/
def WellEscaped (u : Bytes) : Prop :=
  ∀ x a b y, u = x ++ percent :: a :: b :: y → isHexDigit a = true ∧ isHexDigit b = true

/-- A NUL comes from a NUL or from `%00`. -/
def KeepsNul (u : Bytes) : Prop :=
  ∀ before after, decodeURI u = before ++ 0 :: after →
    ∃ x w y, u = x ++ (w ++ y) ∧ (w = [0] ∨ w = bytes "%00") ∧ decodeURI x = before ∧ decodeURI y = after

/-- What a decoding should be: that of the reference, the inverse of every encoding, and without a NUL that
was not asked for. -/
structure DecodesRight (u : Bytes) : Prop where
  reference : decodeURI u = decodeReference u
  encodings : ∀ s, Encodes s u → decodeURI u = s
  nul : KeepsNul u

/-! ## One escape -/

theorem decodeURI_escape (a b : Byte) (u : Bytes) :
    decodeURI (percent :: a :: b :: u) = UInt8.ofNat (hexToDec a * 16 + hexToDec b) :: decodeURI u := by
  rw [decodeURI, if_pos rfl]

theorem decodeReference_cons {c : Byte} (hc : c ≠ percent) (u : Bytes) :
    decodeReference (c :: u) = c :: decodeReference u := by
  match u with
  | [] => rfl
  | [a] => rfl
  | a :: b :: u => rw [decodeReference, if_neg hc]

theorem decodeReference_escape {a b : Byte} (ha : isHexDigit a = true) (hb : isHexDigit b = true)
    (u : Bytes) :
    decodeReference (percent :: a :: b :: u) =
      UInt8.ofNat (hexToDec a * 16 + hexToDec b) :: decodeReference u := by
  obtain ⟨x, hx⟩ := Option.isSome_iff_exists.mp ha
  obtain ⟨y, hy⟩ := Option.isSome_iff_exists.mp hb
  rw [decodeReference, if_pos rfl, hx, hy, hexToDec_eq, hexToDec_eq, hx, hy]
  rfl

/-- A malformed escape is copied. -/
theorem decodeReference_malformed {a b : Byte} (h : ¬ (isHexDigit a = true ∧ isHexDigit b = true))
    (u : Bytes) : decodeReference (percent :: a :: b :: u) = percent :: decodeReference (a :: b :: u) := by
  rw [decodeReference, if_pos rfl]
  cases hx : digitValue a with
  | none => rfl
  | some x =>
    cases hy : digitValue b with
    | none => rfl
    | some y => exact absurd ⟨by rw [isHexDigit, hx]; rfl, by rw [isHexDigit, hy]; rfl⟩ h

/-- No malformed escape is decoded to a `%`: the two digits of that are `2` and `5`. -/
theorem ofNat_ne_percent {a b : Byte} (h : ¬ (isHexDigit a = true ∧ isHexDigit b = true)) :
    UInt8.ofNat (hexToDec a * 16 + hexToDec b) ≠ percent := by
  have hlt : ∀ c : Byte, hexToDec c < 16 := by
    intro c
    rw [hexToDec_eq]
    cases hc : digitValue c with
    | none => decide
    | some x => exact digitValue_lt hc
  have hnot : ¬ (hexToDec a = 2 ∧ hexToDec b = 5) := by
    rintro ⟨ha, hb⟩
    refine h ⟨by_contra fun hnone => ?_, by_contra fun hnone => ?_⟩
    · rw [hexToDec_of_not_isHexDigit hnone] at ha
      cases ha
    · rw [hexToDec_of_not_isHexDigit hnone] at hb
      cases hb
  intro heq
  have hnat := congrArg UInt8.toNat heq
  rw [UInt8.toNat_ofNat'] at hnat
  have ha := hlt a
  have hb := hlt b
  have hvalue : (percent : Byte).toNat = 37 := rfl
  omega

theorem wellEscaped_cons {c : Byte} (hc : c ≠ percent) {u : Bytes} : WellEscaped (c :: u) ↔ WellEscaped u := by
  constructor
  · rintro h x a b y rfl
    exact h (c :: x) a b y rfl
  · intro h x a b y heq
    cases x with
    | nil => exact absurd (List.cons.inj heq).1 hc
    | cons d x => exact h x a b y (List.cons.inj heq).2

theorem wellEscaped_escape {a b : Byte} {u : Bytes} :
    WellEscaped (percent :: a :: b :: u) ↔ (isHexDigit a = true ∧ isHexDigit b = true) ∧ WellEscaped u := by
  constructor
  · refine fun h => ⟨h [] a b u rfl, ?_⟩
    rintro x a' b' y rfl
    exact h (percent :: a :: b :: x) a' b' y rfl
  · rintro ⟨⟨ha, hb⟩, h⟩
    have hrest : WellEscaped (a :: b :: u) :=
      (wellEscaped_cons (ne_percent_of_isHexDigit ha)).mpr
        ((wellEscaped_cons (ne_percent_of_isHexDigit hb)).mpr h)
    intro x a' b' y heq
    cases x with
    | nil =>
      cases heq
      exact ⟨ha, hb⟩
    | cons d x => exact hrest x a' b' y (List.cons.inj heq).2

theorem wellEscaped_of_length {u : Bytes} (h : u.length ≤ 2) : WellEscaped u := by
  rintro x a b y rfl
  rw [List.length_append, List.length_cons, List.length_cons, List.length_cons] at h
  omega

theorem length_le_of_short {u : Bytes} (h : ∀ c a b v, u = c :: a :: b :: v → False) : u.length ≤ 2 := by
  match u with
  | [] => exact Nat.zero_le 2
  | [_] => exact Nat.le_succ 1
  | [_, _] => exact le_refl 2
  | c :: a :: b :: v => exact (h c a b v rfl).elim

theorem decodeURI_of_length {u : Bytes} (h : u.length ≤ 2) : decodeURI u = u := by
  match u with
  | [] => rfl
  | [_] => rfl
  | [_, _] => rfl
  | _ :: _ :: _ :: v =>
    simp only [List.length_cons] at h
    omega

/-! ## Strings -/

/-- What was encoded is decoded again, by induction on the encoding, one letter or escape at a time. -/
theorem decodeURI_of_encodes {s u : Bytes} (h : Encodes s u) : decodeURI u = s := by
  induction h with
  | nil => rfl
  | literal hc _ ih => rw [decodeURI_cons hc, ih]
  | escaped ha hb _ ih =>
    rw [decodeURI_escape, hexToDec_eq, hexToDec_eq, ha, hb, Option.getD_some, Option.getD_some, ih]

theorem decodeURI_eq_decodeReference_iff (u : Bytes) : decodeURI u = decodeReference u ↔ WellEscaped u := by
  fun_induction decodeURI u with
  | case1 a b u ih =>
    by_cases hab : isHexDigit a = true ∧ isHexDigit b = true
    · rw [decodeReference_escape hab.1 hab.2, List.cons_inj_right, wellEscaped_escape, ih]
      exact (and_iff_right hab).symm
    · rw [decodeReference_malformed hab, wellEscaped_escape]
      exact iff_of_false (fun heq => ofNat_ne_percent hab (List.cons.inj heq).1) fun h => hab h.1
  | case2 c a b u hc ih => rw [decodeReference_cons hc, List.cons_inj_right, wellEscaped_cons hc, ih]
  | case3 u hshort =>
    have hlength := length_le_of_short hshort
    refine iff_of_true ?_ (wellEscaped_of_length hlength)
    rw [decodeReference]
    exact hshort

/-- **The place of a decoded byte**: the same byte, or two digits behind a `%`.  What stands before it and
behind it is decoded to what is before it and behind it. -/
theorem exists_origin {u before after : Bytes} {d : Byte} (hu : WellEscaped u)
    (heq : decodeURI u = before ++ d :: after) :
    ∃ x w y, u = x ++ (w ++ y) ∧
      (w = [d] ∨ ∃ a b, w = [percent, a, b] ∧ isHexDigit a = true ∧ isHexDigit b = true ∧
        d = UInt8.ofNat (hexToDec a * 16 + hexToDec b)) ∧
      decodeURI x = before ∧ decodeURI y = after := by
  fun_induction decodeURI u generalizing before with
  | case1 a b u ih =>
    obtain ⟨⟨ha, hb⟩, hrest⟩ := wellEscaped_escape.mp hu
    cases before with
    | nil =>
      obtain ⟨rfl, rfl⟩ := List.cons.inj heq
      exact ⟨[], [percent, a, b], u, rfl, Or.inr ⟨a, b, rfl, ha, hb, rfl⟩, rfl, rfl⟩
    | cons e before =>
      obtain ⟨rfl, htail⟩ := List.cons.inj heq
      obtain ⟨x, w, y, rfl, hw, rfl, rfl⟩ := ih hrest htail
      exact ⟨percent :: a :: b :: x, w, y, rfl, hw, decodeURI_escape a b x, rfl⟩
  | case2 c a b u hc ih =>
    cases before with
    | nil =>
      obtain ⟨rfl, rfl⟩ := List.cons.inj heq
      exact ⟨[], [c], a :: b :: u, rfl, Or.inl rfl, rfl, rfl⟩
    | cons e before =>
      obtain ⟨rfl, htail⟩ := List.cons.inj heq
      obtain ⟨x, w, y, hx, hw, rfl, rfl⟩ := ih ((wellEscaped_cons hc).mp hu) htail
      exact ⟨c :: x, w, y, by rw [hx, List.cons_append], hw, decodeURI_cons hc x, rfl⟩
  | case3 u hshort =>
    have hlength := length_le_of_short hshort
    subst heq
    rw [List.length_append, List.length_cons] at hlength
    exact ⟨before, [d], after, rfl, Or.inl rfl, decodeURI_of_length (by omega), decodeURI_of_length (by omega)⟩

/-- No other escape than `%00` is a NUL. -/
theorem keepsNul_of_wellEscaped {u : Bytes} (hu : WellEscaped u) : KeepsNul u := by
  intro before after heq
  obtain ⟨x, w, y, hsplit, hw, hx, hy⟩ := exists_origin hu heq
  refine ⟨x, w, y, hsplit, hw.imp_right ?_, hx, hy⟩
  rintro ⟨a, b, rfl, ha, hb, hzero⟩
  obtain ⟨m, hm⟩ := Option.isSome_iff_exists.mp ha
  obtain ⟨n, hn⟩ := Option.isSome_iff_exists.mp hb
  have hmlt := digitValue_lt hm
  have hnlt := digitValue_lt hn
  rw [hexToDec_eq, hexToDec_eq, hm, hn, Option.getD_some, Option.getD_some] at hzero
  have hvalue := congrArg UInt8.toNat hzero
  rw [UInt8.toNat_ofNat'] at hvalue
  have hnat : (0 : Byte).toNat = 0 := rfl
  obtain ⟨rfl, rfl⟩ : m = 0 ∧ n = 0 := by omega
  have hdigit : ∀ {c : Byte}, digitValue c = some 0 → c = 48 := by
    intro c hc
    rw [digitValue_eq_some_iff] at hc
    exact UInt8.toNat_inj.mp (show c.toNat = 48 by omega)
  rw [hdigit hm, hdigit hn]
  rfl

/-- **Percent-decoding** is right exactly where every `%` with two bytes after it has two digits there.  The
three parts of being right all come to this. -/
theorem decodesRight_iff (u : Bytes) : DecodesRight u ↔ WellEscaped u :=
  ⟨fun h => (decodeURI_eq_decodeReference_iff u).mp h.reference, fun h =>
    ⟨(decodeURI_eq_decodeReference_iff u).mpr h, fun _ => decodeURI_of_encodes, keepsNul_of_wellEscaped h⟩⟩

/-- A malformed escape becomes a NUL. -/
theorem not_decodesRight :
    decodeURI (bytes "a%zzb") = [97, 0, 98] ∧ decodeReference (bytes "a%zzb") = bytes "a%zzb" ∧
      ¬ DecodesRight (bytes "a%zzb") ∧ ¬ KeepsNul (bytes "a%zzb") := by
  refine ⟨by decide, by decide, fun h => absurd h.reference (by decide), fun h => ?_⟩
  obtain ⟨x, w, y, hsplit, hw, -, -⟩ := h [97] [98] (by decide)
  -- neither a NUL nor `%00` stands in the string
  have hinfix : w <:+: bytes "a%zzb" := ⟨x, y, by rw [hsplit, List.append_assoc]⟩
  rcases hw with rfl | rfl
  · exact absurd ( hinfix.subset List.mem_cons_self) (by decide)
  · exact absurd hinfix (by decide)

end Webserv
