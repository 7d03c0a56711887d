import Mathlib.Data.List.Basic

/-!
# Resumable parsers

An incremental parser is a function that is called each time the unread buffer has grown.  It either waits,
with a new internal state and what it left in the buffer, or stops with an outcome and the rest of the
buffer.  `feed` calls it after each read and keeps the reads that come after it has stopped as an unread
tail.

`Resumes D p` says that cutting the input does not matter to one call: a call that waits can be made up for
by a later call, and a call that stops would have stopped in the same way on a longer buffer.

* `feed_eq`: from this alone, feeding a non-empty list of reads is one call on their concatenation.
* `feed_eq_feed`: so two ways of cutting one stream end in the same way.

## Why the condition is about one call

A parser that is fed in parts may wait any number of times, in states that depend on where the cuts were.
Comparing two ways of cutting directly would mean to compare all these states.  The two clauses of `Resumes`
speak of one call and of any bytes that may follow, and the induction over the reads is done once, here.
What is left to show of a parser is a lemma about its own steps.

## Why there is a domain

The condition `D` on the state and the whole remaining input is there for parsers that behave so on some
streams only.  A parser with a limit on the length of a line is one: on a line that is too long it stops
early, at a point that depends on the cuts.  The first clause hands `D` on to the state in which the parser
waits.
-/

namespace Resumable

variable {σ α ω : Type*}

/-- The answer of one call: wait, or stop with an outcome.  Both carry the unread rest. -/
inductive Verdict (σ α ω : Type*) where
  | wait (state : σ) (rest : List α)
  | stop (outcome : ω) (rest : List α)

/-- A parser: the internal state and the unread buffer to a verdict. -/
abbrev Parser (σ α ω : Type*) := σ → List α → Verdict σ α ω

/-- Input that arrives after the verdict: a parser that waits is called again, and one that has stopped
keeps it unread. -/
def Verdict.extend (p : Parser σ α ω) : Verdict σ α ω → List α → Verdict σ α ω
  | .wait s b, x => p s (b ++ x)
  | .stop o b, x => .stop o (b ++ x)

/-- The reads one after the other, the parser being called after each. -/
def feed (p : Parser σ α ω) (v : Verdict σ α ω) (reads : List (List α)) : Verdict σ α ω :=
  reads.foldl (Verdict.extend p) v

@[simp] theorem feed_nil (p : Parser σ α ω) (v : Verdict σ α ω) : feed p v [] = v := rfl

@[simp] theorem feed_cons (p : Parser σ α ω) (v : Verdict σ α ω) (x : List α)
    (xs : List (List α)) : feed p v (x :: xs) = feed p (v.extend p x) xs := rfl

/-- A call on a cut input can be made up for: `D s l` is the condition on the state `s` and the
whole remaining input `l`. -/
structure Resumes (D : σ → List α → Prop) (p : Parser σ α ω) : Prop where
  wait : ∀ {s b x s' b'}, D s (b ++ x) → p s b = .wait s' b' →
    D s' (b' ++ x) ∧ p s' (b' ++ x) = p s (b ++ x)
  stop : ∀ {s b x o b'}, D s (b ++ x) → p s b = .stop o b' → p s (b ++ x) = .stop o (b' ++ x)

variable {D : σ → List α → Prop} {p : Parser σ α ω}

/-- A parser that has stopped stays stopped, and what comes later is kept unread. -/
theorem feed_stop (o : ω) : ∀ (xs : List (List α)) (b : List α),
    feed p (.stop o b) xs = .stop o (b ++ xs.flatten)
  | [], b => by simp
  | x :: xs, b => by
    rw [feed_cons, Verdict.extend, feed_stop o xs, List.flatten_cons, List.append_assoc]

/-- Feeding what follows a call is one call on the whole. -/
theorem feed_call (hp : Resumes D p) : ∀ (xs : List (List α)) {s : σ} {b : List α},
    D s (b ++ xs.flatten) → feed p (p s b) xs = p s (b ++ xs.flatten)
  | [], s, b, _ => by simp
  | x :: xs, s, b, hD => by
    rw [List.flatten_cons] at hD ⊢
    cases hv : p s b with
    | stop o b' =>
      rw [feed_stop, hp.stop hD hv, List.flatten_cons]
    | wait s' b' =>
      obtain ⟨hD', hs⟩ := hp.wait hD hv
      rw [← List.append_assoc] at hD'
      rw [feed_cons, Verdict.extend, feed_call hp xs hD', List.append_assoc, hs]

/-- **Feeding a non-empty list of reads is one call on their concatenation.**  The induction is on the
reads: two calls are one, as long as the parser waits. -/
theorem feed_eq (hp : Resumes D p) {reads : List (List α)} (hne : reads ≠ []) {s : σ}
    {b : List α} (hD : D s (b ++ reads.flatten)) :
    feed p (.wait s b) reads = p s (b ++ reads.flatten) := by
  cases reads with
  | nil => exact absurd rfl hne
  | cons x xs =>
    rw [List.flatten_cons, ← List.append_assoc] at hD ⊢
    rw [feed_cons, Verdict.extend, feed_call hp xs hD]

/-- **Two ways of cutting one stream into non-empty reads end in the same way**, as both are one call on the
stream. -/
theorem feed_eq_feed (hp : Resumes D p) {xs ys : List (List α)}
    (hxs : ∀ x ∈ xs, x ≠ []) (hys : ∀ y ∈ ys, y ≠ []) (h : xs.flatten = ys.flatten) {s : σ}
    {b : List α} (hD : D s (b ++ xs.flatten)) :
    feed p (.wait s b) xs = feed p (.wait s b) ys := by
  have hnil : ∀ zs : List (List α), (∀ z ∈ zs, z ≠ []) → zs.flatten = [] → zs = [] := by
    intro zs hzs hflat
    rw [List.flatten_eq_nil_iff] at hflat
    exact List.eq_nil_iff_forall_not_mem.mpr fun z hz => hzs z hz (hflat z hz)
  by_cases hx : xs = []
  · have hy : ys = [] := hnil ys hys (by rw [← h, hx, List.flatten_nil])
    rw [hx, hy]
  · have hy : ys ≠ [] := by
      rintro rfl
      exact hx (hnil xs hxs (by rw [h, List.flatten_nil]))
    rw [feed_eq hp hx hD, feed_eq hp hy (h ▸ hD), h]

end Resumable
