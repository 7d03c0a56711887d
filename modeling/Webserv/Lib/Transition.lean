import Mathlib.Data.List.Basic

/-!
# Runs of a deterministic transition system

A transition system is a step function `σ → ε → σ` that takes a state and an event.  A run is the fold of
the step over a list of events.  Four rules carry facts from one step to a whole run.

* `run_invariant`: a property that every step preserves holds after every run.
* `run_rel`: a reflexive and transitive relation that every step respects relates the ends of every run.
* `run_record`: what ties the state to a record of the run, step by step, ties the end of every run to its
  record.
* `run_stops_iff`: a run shows at its end what the step at which it stopped has shown.

## Why the step is a function

Nondeterminism is in the events: an event carries all that the surroundings decide, so that a step has one
outcome.  A statement about every behaviour is then one about every list of events, and a run is a term that
can be computed.  A relational step would have to be determined again in every proof by its cases.

## Why the rules have a side condition

The first three are stated for runs whose steps all meet a condition `C` on the state before the step and
the event; `Along step C s es` says that they do.  Statements of the form "whenever no step does this, that
holds in the end" are of this kind, and so are assumptions about the surroundings.  `Along` is defined by
recursion on the list, which makes it decidable where `C` is and easy to take apart at the front;
`along_iff` gives it as a statement about all places of the run, and `along_append` at a place in the
middle.  A rule without a condition is the case in which `C` is always true.
-/

namespace Transition

variable {σ ε : Type*} (step : σ → ε → σ)

/-- The state after a list of events. -/
def run (s : σ) (es : List ε) : σ := es.foldl step s

@[simp] theorem run_nil (s : σ) : run step s [] = s := rfl

@[simp] theorem run_cons (s : σ) (e : ε) (es : List ε) :
    run step s (e :: es) = run step (step s e) es := rfl

/-- A run over two lists is a run over the first and then one over the second. -/
theorem run_append (s : σ) (es fs : List ε) :
    run step s (es ++ fs) = run step (run step s es) fs := by
  simp only [run, List.foldl_append]

/-- Every step of the run meets the condition, in the state that the run has led to by then. -/
def Along (C : σ → ε → Prop) : σ → List ε → Prop
  | _, [] => True
  | s, e :: es => C s e ∧ Along C (step s e) es

variable {step} {C : σ → ε → Prop}

@[simp] theorem along_nil (s : σ) : Along step C s [] := trivial

@[simp] theorem along_cons {s : σ} {e : ε} {es : List ε} :
    Along step C s (e :: es) ↔ C s e ∧ Along step C (step s e) es := Iff.rfl

theorem along_append {s : σ} {es fs : List ε} :
    Along step C s (es ++ fs) ↔ Along step C s es ∧ Along step C (run step s es) fs := by
  induction es generalizing s with
  | nil => simp
  | cons e es ih => rw [List.cons_append, along_cons, ih, along_cons, run_cons, and_assoc]

/-- A condition holds along a run when it holds at every event, in the state that the events before
it lead to. -/
theorem along_iff {s : σ} {es : List ε} :
    Along step C s es ↔ ∀ fs e gs, es = fs ++ e :: gs → C (run step s fs) e := by
  constructor
  · rintro h fs e gs rfl
    exact (along_append.mp h).2.1
  · intro h
    induction es generalizing s with
    | nil => trivial
    | cons e es ih =>
      exact ⟨h [] e es rfl, ih fun fs e' gs heq => h (e :: fs) e' gs (by rw [heq, List.cons_append])⟩

/-- A condition that always holds holds along every run. -/
theorem along_of_forall (h : ∀ s e, C s e) : ∀ (es : List ε) (s : σ), Along step C s es
  | [], _ => trivial
  | _ :: es, _ => ⟨h _ _, along_of_forall h es _⟩

/-- A weaker condition holds along every run along which a stronger one does. -/
theorem Along.mono {C' : σ → ε → Prop} (h : ∀ s e, C s e → C' s e) {es : List ε} {s : σ}
    (hc : Along step C s es) : Along step C' s es := by
  induction es generalizing s with
  | nil => trivial
  | cons e es ih => exact ⟨h s e hc.1, ih hc.2⟩

/-- A condition on the events alone holds along a run when every event meets it. -/
theorem along_of_mem {P : ε → Prop} {es : List ε} (h : ∀ e ∈ es, P e) (s : σ) :
    Along step (fun _ e => P e) s es := by
  induction es generalizing s with
  | nil => trivial
  | cons e es ih =>
    rw [List.forall_mem_cons] at h
    exact ⟨h.1, ih h.2 _⟩

/-- **Invariants.**  What every step that meets the condition preserves holds after every run
whose steps all meet it. -/
theorem run_invariant {I : σ → Prop} (hI : ∀ s e, I s → C s e → I (step s e)) {es : List ε}
    {s : σ} (hs : I s) (hc : Along step C s es) : I (run step s es) := by
  induction es generalizing s with
  | nil => exact hs
  | cons e es ih => exact ih (hI s e hs hc.1) hc.2

/-- **Relations between the ends of a run.**  A reflexive and transitive relation that every step
from an invariant state respects relates the ends of every run. -/
theorem run_rel {I : σ → Prop} {R : σ → σ → Prop} (hrefl : ∀ s, R s s)
    (htrans : ∀ a b c, R a b → R b c → R a c) (hI : ∀ s e, I s → C s e → I (step s e))
    (hR : ∀ s e, I s → C s e → R s (step s e)) {es : List ε} {s : σ} (hs : I s)
    (hc : Along step C s es) : R s (run step s es) := by
  induction es generalizing s with
  | nil => exact hrefl s
  | cons e es ih => exact htrans _ _ _ (hR s e hs hc.1) (ih (hI s e hs hc.1) hc.2)

variable {γ : Type*}

/-- **Stopping.**  When a state that shows something stays as it is, what is shown after a run that starts
without it is what one of the steps has come to show. -/
theorem run_stops_iff {g : σ → Option γ} (hstop : ∀ s e, (g s).isSome = true → step s e = s)
    {es : List ε} {s : σ} (hs : g s = none) (a : γ) :
    g (run step s es) = some a ↔ ∃ fs e gs, es = fs ++ e :: gs ∧ g (run step s fs) = none ∧
      g (step (run step s fs) e) = some a := by
  have hstopped : ∀ (es : List ε) (s : σ), (g s).isSome = true → run step s es = s := by
    intro es
    induction es with
    | nil => exact fun s _ => rfl
    | cons e es ih =>
      intro s hsome
      rw [run_cons, hstop s e hsome]
      exact ih s hsome
  constructor
  · intro hrun
    induction es generalizing s with
    | nil =>
      rw [run_nil, hs] at hrun
      cases hrun
    | cons e es ih =>
      cases hnext : g (step s e) with
      | none =>
        obtain ⟨fs, e', gs, rfl, hbefore, hshows⟩ := ih hnext hrun
        exact ⟨e :: fs, e', gs, rfl, hbefore, hshows⟩
      | some b =>
        rw [run_cons, hstopped es _ (by rw [hnext]; rfl), hnext] at hrun
        exact ⟨[], e, es, rfl, hs, hnext.trans hrun⟩
  · rintro ⟨fs, e, gs, rfl, -, hshows⟩
    rw [run_append, run_cons, hstopped gs _ (by rw [hshows]; rfl)]
    exact hshows

variable (step) in
/-- What is recorded of a run, when a step from `s` on `e` turns the record `g` into `note s e g`. -/
def record (note : σ → ε → γ → γ) : σ → List ε → γ → γ
  | _, [], g => g
  | s, e :: es, g => record note (step s e) es (note s e g)

@[simp] theorem record_nil (note : σ → ε → γ → γ) (s : σ) (g : γ) : record step note s [] g = g := rfl

@[simp] theorem record_cons (note : σ → ε → γ → γ) (s : σ) (e : ε) (es : List ε) (g : γ) :
    record step note s (e :: es) g = record step note (step s e) es (note s e g) := rfl

/-- **Records.**  What ties the state to a record, and is kept by every step that meets the condition,
ties the end of every run whose steps all meet it to the record of the run. -/
theorem run_record {note : σ → ε → γ → γ} {I : σ → γ → Prop}
    (hI : ∀ s e g, I s g → C s e → I (step s e) (note s e g)) {es : List ε} {s : σ} {g : γ}
    (hs : I s g) (hc : Along step C s es) : I (run step s es) (record step note s es g) := by
  induction es generalizing s g with
  | nil => exact hs
  | cons e es ih =>
    rw [run_cons, record_cons]
    exact ih (hI s e g hs hc.1) hc.2

end Transition
