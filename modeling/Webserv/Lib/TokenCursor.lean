import Mathlib.Data.List.Basic
import Mathlib.Data.Int.Basic

/-!
# Cursors in a list of tokens

A parser that walks a list of tokens by position: a read of a token outside the list and a loop that does
not end are outcomes of their own (`Halt`), next to the errors that the parser throws.  The items of a
parser are the pieces it reads in one round of a loop, each with its tokens and with what it does to the
state of the parser.

* `forEach_eq`: a loop over the tokens ahead is a fold over them.
* `Reads`: the body of a loop reads items.
* `Reads.loop_eq`: the loop over a list of items is the fold of their effects.
* `Reads.loop_cases`: a loop throws, or it has read a list of items; it neither leaves the list nor runs out
  of fuel.

## Why there are two more outcomes

A parser that is written with an iterator may move it past the end, and a loop may move it not at all.  A
model that gave such a read some value, or that was total by construction, would have proved the parser safe
by its own definition.  Here the two are outcomes, and that they do not happen is a theorem about each
parser.

## Why items

The language that a parser accepts is best described from above, as a list of items with their tokens, and
the parser works from the left, with a cursor and a test for the end.  `Reads` connects the two for one
round: where the tokens of an item are ahead, the body does what the item does and leaves the cursor on its
last token; where no item is ahead, it throws.  From this the two theorems about the loop follow for every
parser, one for each direction, by induction on the items and on the fuel.
-/

namespace TokenCursor

universe u v w

variable {τ α : Type u} {ε : Type v} {ι : Type w}

/-- How a function of the parser ends without an answer: with an error of its own, outside of the list, or
without rounds left. -/
inductive Halt (ε : Type v) where
  | exception (e : ε)
  /-- A token was read at or past the end of the list. -/
  | outOfRange
  /-- A loop did not end within the number of rounds it was given. -/
  | outOfFuel
  deriving DecidableEq

/-- A check that throws, as a part of a handler, which may also leave the tokens or run out of rounds. -/
def lift : Except ε α → Except (Halt ε) α := Except.mapError Halt.exception

@[simp] theorem lift_ok (a : α) : lift (.ok a : Except ε α) = .ok a := rfl

@[simp] theorem lift_error (e : ε) : lift (.error e : Except ε α) = .error (.exception e) := rfl

/-- A check that is made of two is lifted in parts. -/
theorem lift_bind {β : Type u} (x : Except ε α) (f : α → Except ε β) :
    lift (x >>= f) = lift x >>= fun a => lift (f a) := by
  cases x <;> rfl

/-- A fold of checks is lifted as one check. -/
theorem foldlM_lift {β : Type*} (f : α → β → Except ε α) :
    ∀ (l : List β) (s : α), l.foldlM (fun s t => lift (f s t)) s = lift (l.foldlM f s)
  | [], _ => rfl
  | t :: l, s => by
    rw [List.foldlM_cons, List.foldlM_cons, lift_bind]
    exact congrArg _ (funext fun s => foldlM_lift f l s)

/-! ## Reading a token -/

/-- The token at a position. -/
def deref (tokens : List τ) (token : ℕ) : Except (Halt ε) τ :=
  match tokens[token]? with
  | some t => .ok t
  | none => .error .outOfRange

section Drop

variable {tokens l rest : List τ} {token : ℕ} {t : τ}

/-- With a token ahead the read succeeds. -/
theorem deref_of_drop (h : tokens.drop token = t :: rest) :
    (deref tokens token : Except (Halt ε) τ) = .ok t := by
  have hget : tokens[token]? = some t := by rw [← List.head?_drop, h, List.head?_cons]
  rw [deref, hget]

/-- The cursor behind a part of the tokens. -/
theorem drop_append (h : tokens.drop token = l ++ rest) :
    tokens.drop (token + l.length) = rest := by
  rw [← List.drop_drop, h, List.drop_left]

theorem drop_cons (h : tokens.drop token = t :: rest) : tokens.drop (token + 1) = rest :=
  drop_append (l := [t]) h

/-- With a token ahead the cursor is inside the list. -/
theorem lt_of_drop (h : tokens.drop token = t :: rest) : token < tokens.length := by
  by_contra hle
  rw [List.drop_of_length_le (not_lt.mp hle)] at h
  cases h

theorem add_le_of_drop (hle : token ≤ tokens.length) (hdrop : tokens.drop token = l ++ rest) :
    token + l.length ≤ tokens.length := by
  have hlength := congrArg List.length hdrop
  rw [List.length_drop, List.length_append] at hlength
  omega

theorem add_eq_of_drop (hle : token ≤ tokens.length) (hdrop : tokens.drop token = l ++ []) :
    token + l.length = tokens.length := by
  have hlength := congrArg List.length hdrop
  rw [List.length_drop, List.append_nil] at hlength
  omega

theorem exists_drop_of_lt (h : token < tokens.length) : ∃ t rest, tokens.drop token = t :: rest :=
  ⟨_, _, List.drop_eq_getElem_cons h⟩

end Drop

/-! ## Loops over the tokens ahead -/

/-- `for (i = 0; i < n; ++i) { f(*token); ++token; }`. -/
def forEach (tokens : List τ) (f : α → τ → Except (Halt ε) α) :
    ℕ → ℕ → α → Except (Halt ε) (ℕ × α)
  | 0, token, s => .ok (token, s)
  | n + 1, token, s => do
    let t ← deref tokens token
    let s ← f s t
    forEach tokens f n (token + 1) s

theorem forEach_eq {tokens : List τ} (f : α → τ → Except (Halt ε) α) :
    ∀ {l rest : List τ} {token : ℕ} (s : α), tokens.drop token = l ++ rest →
      forEach tokens f l.length token s = (l.foldlM f s).map fun s => (token + l.length, s)
  | [], _, _, _, _ => rfl
  | t :: l, rest, token, s, h => by
    rw [List.length_cons, forEach, deref_of_drop h, List.foldlM_cons]
    show (f s t >>= fun s => forEach tokens f l.length (token + 1) s) = _
    cases f s t with
    | error e => rfl
    | ok s' =>
      refine (forEach_eq f s' (drop_cons h)).trans ?_
      rw [Nat.add_assoc, Nat.add_comm 1]
      rfl

/-- `while (token != end && !stop(*token)) { body(token); ++token; }`, for at most the given number
of rounds. -/
def loop (tokens : List τ) (stop : τ → Bool) (body : τ → ℕ → α → Except (Halt ε) (ℕ × α)) :
    ℕ → ℕ → α → Except (Halt ε) (ℕ × α)
  | 0, _, _ => .error .outOfFuel
  | fuel + 1, token, s =>
    if token = tokens.length then .ok (token, s)
    else do
      let t ← deref tokens token
      if stop t then .ok (token, s)
      else
        let (token, s) ← body t token s
        loop tokens stop body fuel (token + 1) s

/-- The loop stops at the end of the list, or before a token that ends it. -/
theorem loop_stop {tokens rest : List τ} {stop : τ → Bool}
    {body : τ → ℕ → α → Except (Halt ε) (ℕ × α)} {token fuel : ℕ} (s : α) (hle : token ≤ tokens.length)
    (hdrop : tokens.drop token = rest) (hrest : ∀ t ∈ rest.head?, stop t = true) :
    loop tokens stop body (fuel + 1) token s = .ok (token, s) := by
  rw [loop]
  split_ifs with hend
  · rfl
  · obtain ⟨t, rest', hcons⟩ := exists_drop_of_lt (lt_of_le_of_ne hle hend)
    have hstop : stop t = true := hrest t (by rw [← hdrop, hcons]; rfl)
    rw [deref_of_drop hcons]
    exact if_pos hstop

/-! ## Items -/

/-- A kind of item: the tokens of an item, of which there is one before the last. -/
structure Items (τ : Type u) (ι : Type w) where
  init : ι → List τ
  last : ι → τ
  init_ne_nil : ∀ i, init i ≠ []

namespace Items

variable (I : Items τ ι)

def tokens (i : ι) : List τ := I.init i ++ [I.last i]

theorem exists_tokens_cons (i : ι) : ∃ t l, I.init i = t :: l :=
  List.exists_cons_of_ne_nil (I.init_ne_nil i)

@[simp] theorem length_tokens (i : ι) : (I.tokens i).length = (I.init i).length + 1 := by
  simp [tokens]

/-- There are no more items than tokens. -/
theorem length_le_length_flatMap (items : List ι) :
    items.length ≤ (items.flatMap I.tokens).length := by
  induction items with
  | nil => simp
  | cons i items ih =>
    rw [List.length_cons, List.flatMap_cons, List.length_append, length_tokens]
    omega

end Items

/-- The body of a loop reads items: it does what the item does to the state and leaves the cursor on
the last token of the item; where no item is ahead it throws. -/
structure Reads (I : Items τ ι) (eval : ι → α → Except ε α) (tokens : List τ) (stop : τ → Bool)
    (body : τ → ℕ → α → Except (Halt ε) (ℕ × α)) : Prop where
  goes_on : ∀ {i t l}, I.init i = t :: l → stop t = false
  body_eq : ∀ {i t l rest token} (s : α), I.init i = t :: l →
    tokens.drop token = I.tokens i ++ rest →
      body t token s = (lift (eval i s)).map fun s => (token + (I.init i).length, s)
  item_or_error : ∀ {t rest token} (s : α), tokens.drop token = t :: rest → stop t = false →
    (∃ i rest', t :: rest = I.tokens i ++ rest') ∨ ∃ e, body t token s = .error (.exception e)

namespace Reads

variable {I : Items τ ι} {eval : ι → α → Except ε α} {tokens : List τ} {stop : τ → Bool}
  {body : τ → ℕ → α → Except (Halt ε) (ℕ × α)} (h : Reads I eval tokens stop body)
include h

/-- One round of the loop over an item.  The cursor moves by the length of the item, and the fuel by one. -/
theorem loop_item {i : ι} {rest : List τ} {token fuel : ℕ} {s : α}
    (hdrop : tokens.drop token = I.tokens i ++ rest) :
    loop tokens stop body (fuel + 1) token s =
      lift (eval i s) >>= loop tokens stop body fuel (token + (I.tokens i).length) := by
  obtain ⟨t, l, hinit⟩ := I.exists_tokens_cons i
  have hcons : tokens.drop token = t :: (l ++ [I.last i] ++ rest) := by
    rw [hdrop, Items.tokens, hinit]
    rfl
  rw [loop, if_neg (Nat.ne_of_lt (lt_of_drop hcons)), deref_of_drop hcons]
  show (if stop t = true then _ else body t token s >>= _) = _
  rw [if_neg (by rw [h.goes_on hinit]; exact Bool.false_ne_true), h.body_eq s hinit hdrop, I.length_tokens,
    ← Nat.add_assoc]
  cases eval i s <;> rfl

/-- **Completeness.**  The loop over a list of items folds their effects, and ends behind them, if it has a
round for each. -/
theorem loop_eq {rest : List τ} (hrest : ∀ t ∈ rest.head?, stop t = true) :
    ∀ {items : List ι} {token fuel : ℕ} (s : α), items.length < fuel → token ≤ tokens.length →
      tokens.drop token = items.flatMap I.tokens ++ rest →
        loop tokens stop body fuel token s =
          (lift (items.foldlM (fun s i => eval i s) s)).map fun s =>
            (token + (items.flatMap I.tokens).length, s)
  | _, _, 0, _, hfuel, _, _ => absurd hfuel (Nat.not_lt_zero _)
  | [], _, _ + 1, s, _, hle, hdrop => loop_stop s hle hdrop hrest
  | i :: items, token, fuel + 1, s, hfuel, hle, hdrop => by
    rw [List.flatMap_cons, List.append_assoc] at hdrop
    rw [h.loop_item hdrop, List.foldlM_cons, lift_bind]
    cases eval i s with
    | error e => rfl
    | ok s' =>
      have ih := loop_eq hrest s' (Nat.lt_of_succ_lt_succ hfuel) (add_le_of_drop hle hdrop)
        (drop_append hdrop)
      refine ih.trans ?_
      rw [List.flatMap_cons, List.length_append, ← Nat.add_assoc]
      rfl

/-- **Soundness.**  The loop throws, or it has read a list of items up to the end of the list or a
token that ends it, and has folded their effects. -/
theorem loop_cases : ∀ {fuel token : ℕ} (s : α), token ≤ tokens.length →
    tokens.length - token < fuel →
      (∃ (items : List ι) (rest : List τ) (s' : α), tokens.drop token = items.flatMap I.tokens ++ rest ∧
          (∀ t ∈ rest.head?, stop t = true) ∧
          items.foldlM (fun s i => eval i s) s = .ok s' ∧
          loop tokens stop body fuel token s =
            .ok (token + (items.flatMap I.tokens).length, s')) ∨
        ∃ e, loop tokens stop body fuel token s = .error (.exception e)
  | 0, _, _, _, hfuel => absurd hfuel (Nat.not_lt_zero _)
  | fuel + 1, token, s, hle, hfuel => by
    by_cases hrest : ∀ t ∈ (tokens.drop token).head?, stop t = true
    · exact Or.inl ⟨[], tokens.drop token, s, rfl, hrest, rfl, loop_stop s hle rfl hrest⟩
    · obtain ⟨t, hhead, hgo⟩ : ∃ t ∈ (tokens.drop token).head?, ¬ stop t = true := by
        simpa using hrest
      obtain ⟨rest, hcons⟩ := List.head?_eq_some_iff.mp hhead
      rcases h.item_or_error s hcons (by simpa using hgo) with ⟨i, rest', hitem⟩ | ⟨e, he⟩
      · have hdrop := hcons.trans hitem
        rw [h.loop_item hdrop]
        cases heval : eval i s with
        | error e => exact Or.inr ⟨e, rfl⟩
        | ok s' =>
          have hnext : token + (I.tokens i).length ≤ tokens.length := add_le_of_drop hle hdrop
          have hpos : 0 < (I.tokens i).length := by simp
          rcases loop_cases s' hnext (by omega : tokens.length - _ < fuel) with
            ⟨items, rest'', s'', hdrop', hstop, hfold, hloop⟩ | ⟨e, he⟩
          · refine Or.inl ⟨i :: items, rest'', s'', ?_, hstop, ?_, ?_⟩
            · rw [List.flatMap_cons, List.append_assoc, ← hdrop', drop_append hdrop, hdrop]
            · rw [List.foldlM_cons, heval]
              exact hfold
            · refine Eq.trans hloop ?_
              rw [List.flatMap_cons, List.length_append, ← Nat.add_assoc]
          · exact Or.inr ⟨e, he⟩
      · refine Or.inr ⟨e, ?_⟩
        rw [loop, if_neg (Nat.ne_of_lt (lt_of_drop hcons)), deref_of_drop hcons]
        show (if stop t = true then _ else body t token s >>= _) = _
        rw [if_neg (by simpa using hgo), he]
        rfl

end Reads
end TokenCursor
