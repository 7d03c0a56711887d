import Mathlib.Data.List.Basic

/-!
# Streams with a payload

A framed stream carries its payload between size lines, delimiters and the like.  A marked stream says of
each element whether it is payload.  A receiver gets the stream in reads and writes the payload.

* `Cuts`: some read ends right before an element of the payload.
* `Tally`: what a receiver has written that writes the payload, and something more at every cut.
* `Tally.eq_iff`: it has written the payload exactly when there was no cut.

## Why the elements are marked

Whether a receiver is in the middle of the payload when its buffer runs out is a question about the stream
and the places where the reads end.  To ask it of an unmarked stream one would have to parse the frame again
in the specification.  With the marks, the place after a number of elements is `drop` of that number, and
`AtPayload` looks at one element.

## What a tally forgets

A receiver of this kind is wrong in one way: at a cut it writes more than it has.  Nothing need be known
about what it writes too much.  It is enough that it is something, since a list that is longer than the
payload is not the payload; so `Tally` keeps the equation while there was no cut, and a length after the
first one.  `Tally.append` adds what one more read did, with the cut of that read as a disjunct.
-/

namespace Payload

variable {α : Type*}

/-! ## Marked streams -/

/-- A list, all of it payload or none of it. -/
def mark (isPayload : Bool) (l : List α) : List (α × Bool) := l.map fun a => (a, isPayload)

/-- The elements of a stream, without their marks: what is really sent. -/
def raw (s : List (α × Bool)) : List α := s.map Prod.fst

/-- The payload of a stream: the marked elements, in order. -/
def payload (s : List (α × Bool)) : List α := (s.filter Prod.snd).map Prod.fst

/-- The first element is payload: what comes next belongs to the content and not to the framing. -/
def AtPayload (s : List (α × Bool)) : Prop := ∃ a t, s = (a, true) :: t

@[simp] theorem raw_nil : raw ([] : List (α × Bool)) = [] := rfl

@[simp] theorem raw_append (s t : List (α × Bool)) : raw (s ++ t) = raw s ++ raw t :=
  List.map_append ..

@[simp] theorem length_raw (s : List (α × Bool)) : (raw s).length = s.length := List.length_map _

@[simp] theorem raw_mark (isPayload : Bool) (l : List α) : raw (mark isPayload l) = l := by
  induction l with
  | nil => rfl
  | cons a l ih => rw [mark, List.map_cons, raw, List.map_cons, ← mark, ← raw, ih]

@[simp] theorem mark_nil (isPayload : Bool) : mark isPayload ([] : List α) = [] := rfl

/-- Two lists that are marked alike are marked as one. -/
theorem mark_append (isPayload : Bool) (l₁ l₂ : List α) :
    mark isPayload (l₁ ++ l₂) = mark isPayload l₁ ++ mark isPayload l₂ :=
  List.map_append ..

@[simp] theorem length_mark (isPayload : Bool) (l : List α) : (mark isPayload l).length = l.length :=
  List.length_map _

@[simp] theorem payload_append (s t : List (α × Bool)) :
    payload (s ++ t) = payload s ++ payload t := by
  simp only [payload, List.filter_append, List.map_append]

@[simp] theorem payload_mark_true (l : List α) : payload (mark true l) = l := by
  induction l with
  | nil => rfl
  | cons a l ih => simpa [mark, payload] using ih

@[simp] theorem payload_mark_false (l : List α) : payload (mark false l) = [] := by
  induction l with
  | nil => rfl
  | cons a l ih => simp [mark, payload]

/-- A part of a list that is payload, or is not, is marked like the list. -/
theorem mark_eq_append {isPayload : Bool} {l : List α} {p q : List (α × Bool)}
    (h : mark isPayload l = p ++ q) :
    p = mark isPayload (raw p) ∧ q = mark isPayload (raw q) ∧ l = raw p ++ raw q := by
  obtain ⟨l₁, l₂, rfl, hp, hq⟩ := List.map_eq_append_iff.mp h
  have hp' : p = mark isPayload l₁ := hp.symm
  have hq' : q = mark isPayload l₂ := hq.symm
  rw [hp', hq', raw_mark, raw_mark]
  exact ⟨rfl, rfl, rfl⟩

/-- A part that is no payload is not at the payload, however the stream goes on. -/
theorem not_atPayload_mark_append {l : List α} (hl : l ≠ []) (s : List (α × Bool)) :
    ¬ AtPayload (mark false l ++ s) := by
  cases l with
  | nil => exact absurd rfl hl
  | cons a l =>
    rintro ⟨b, t, h⟩
    cases h

/-- A part that is payload is at the payload. -/
theorem atPayload_mark_append {l : List α} (hl : l ≠ []) (s : List (α × Bool)) :
    AtPayload (mark true l ++ s) := by
  cases l with
  | nil => exact absurd rfl hl
  | cons a l => exact ⟨a, mark true l ++ s, rfl⟩

/-- Without any payload left a stream is not at it. -/
theorem not_atPayload_of_payload {s : List (α × Bool)} (h : payload s = []) : ¬ AtPayload s := by
  rintro ⟨a, t, rfl⟩
  cases h

/-! ## Reads -/

/-- Some read of the stream ends right before an element of the payload. -/
def Cuts : List (α × Bool) → List (List α) → Prop
  | _, [] => False
  | s, x :: xs => AtPayload (s.drop x.length) ∨ Cuts (s.drop x.length) xs

/-- One more read.  A sequence cuts the payload when its last read does or an earlier one did. -/
theorem cuts_concat {s : List (α × Bool)} {xs : List (List α)} {x : List α} :
    Cuts s (xs ++ [x]) ↔ Cuts s xs ∨ AtPayload (s.drop (xs ++ [x]).flatten.length) := by
  induction xs generalizing s with
  | nil => simp [Cuts]
  | cons y xs ih =>
    rw [List.cons_append, Cuts, Cuts, ih, or_assoc, List.drop_drop, List.flatten_cons, List.length_append]

/-! ## What was written -/

/-- The payload was written, or something longer when there was a cut. -/
structure Tally (cut : Prop) (payload written : List α) : Prop where
  eq : ¬ cut → written = payload
  length_lt : cut → payload.length < written.length

theorem Tally.nil : Tally False ([] : List α) [] := ⟨fun _ => rfl, False.elim⟩

/-- More payload was written, and something extra.  The tally is exact exactly as long as nothing extra ever
was. -/
theorem Tally.append {cut : Prop} {payload written : List α} (h : Tally cut payload written)
    (done extra : List α) :
    Tally (cut ∨ extra ≠ []) (payload ++ done) (written ++ (done ++ extra)) := by
  constructor
  · intro hcut
    rw [not_or, not_not] at hcut
    rw [h.eq hcut.1, hcut.2, List.append_nil]
  · intro hcut
    simp only [List.length_append]
    by_cases hextra : extra = []
    · have := h.length_lt (hcut.resolve_right (not_not_intro hextra))
      omega
    · have hpos := List.length_pos_iff.mpr hextra
      by_cases hprior : cut
      · have := h.length_lt hprior
        omega
      · rw [h.eq hprior]
        omega

/-- The cut may be stated in another way. -/
theorem Tally.congr {cut cut' : Prop} {payload written : List α} (h : Tally cut payload written)
    (hiff : cut ↔ cut') : Tally cut' payload written :=
  ⟨fun hcut => h.eq (mt hiff.mp hcut), fun hcut => h.length_lt (hiff.mpr hcut)⟩

/-- **What was written is the payload exactly when there was no cut**, since every cut has added something
and nothing is taken back. -/
theorem Tally.eq_iff {cut : Prop} {payload written : List α} (h : Tally cut payload written) :
    written = payload ↔ ¬ cut := by
  constructor
  · rintro rfl hcut
    exact absurd (h.length_lt hcut) (Nat.lt_irrefl _)
  · exact h.eq

end Payload
