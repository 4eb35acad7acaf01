import Mathlib.Data.List.Basic

/-!
# Runs of a partial step function

A run folds a step that may be undefined over a list of events.  The rules
carry an invariant that may speak of the events handled so far, either along a
run that is known to be defined, or together with its definedness.
-/

set_option autoImplicit false

namespace EventRun

variable {σ ε : Type}

def run (step : σ → ε → Option σ) : List ε → σ → Option σ
  | [], state => some state
  | event :: rest, state => do
      let next ← step state event
      run step rest next

variable {step : σ → ε → Option σ}

theorem run_append (before after : List ε) (state : σ) :
    run step (before ++ after) state = (run step before state).bind (run step after) := by
  induction before generalizing state with
  | nil => rfl
  | cons event rest ih =>
      simp only [List.cons_append, run, Option.bind_eq_bind]
      cases step state event with
      | none => rfl
      | some next => exact ih next

theorem run_snoc (before : List ε) (event : ε) (state : σ) :
    run step (before ++ [event]) state = (run step before state).bind (step · event) := by
  rw [run_append]
  congr 1
  funext middle
  simp [run]

/-- A defined run is defined at every prefix. -/
theorem run_split {before after : List ε} {state final : σ}
    (success : run step (before ++ after) state = some final) :
    ∃ middle, run step before state = some middle ∧ run step after middle = some final := by
  rw [run_append] at success
  exact Option.bind_eq_some_iff.mp success

/-- The step lemma is about a defined step after any history. -/
theorem run_preserves (invariant : List ε → σ → Prop)
    (preserved : ∀ history state event next, invariant history state →
      step state event = some next → invariant (history ++ [event]) next) :
    ∀ (events history : List ε) (state final : σ), invariant history state →
      run step events state = some final → invariant (history ++ events) final := by
  intro events
  induction events with
  | nil =>
      intro history state final holds success
      obtain rfl := Option.some.inj success
      simpa using holds
  | cons event rest ih =>
      intro history state final holds success
      obtain ⟨next, stepped, success⟩ := Option.bind_eq_some_iff.mp success
      have after := ih (history ++ [event]) next final
        (preserved history state event next holds stepped) success
      simpa using after

/-- Induction over the reached states of a defined run. -/
theorem run_induction {start : σ} (motive : List ε → σ → Prop) (initial : motive [] start)
    (preserved : ∀ history state event next, run step history start = some state →
      motive history state → step state event = some next → motive (history ++ [event]) next)
    {events : List ε} {final : σ} (returned : run step events start = some final) :
    motive events final := by
  refine (run_preserves (fun history state => run step history start = some state ∧
    motive history state) ?_ events [] start final ⟨rfl, initial⟩ returned).2
  rintro history state event next ⟨reached, holds⟩ stepped
  refine ⟨?_, preserved history state event next reached holds stepped⟩
  rw [run_snoc, reached]
  exact stepped

/-- The step lemma also gives that the step is defined. -/
theorem run_total (invariant : List ε → σ → Prop) (allowed : ε → Prop)
    (preserved : ∀ history state event, invariant history state → allowed event →
      ∃ next, step state event = some next ∧ invariant (history ++ [event]) next) :
    ∀ (events history : List ε) (state : σ), invariant history state →
      (∀ event ∈ events, allowed event) →
      ∃ final, run step events state = some final ∧ invariant (history ++ events) final := by
  intro events
  induction events with
  | nil =>
      intro history state holds _
      exact ⟨state, rfl, by simpa using holds⟩
  | cons event rest ih =>
      intro history state holds each
      obtain ⟨next, stepped, nextHolds⟩ :=
        preserved history state event holds (each event (List.mem_cons_self ..))
      obtain ⟨final, success, finalHolds⟩ := ih (history ++ [event]) next nextHolds
        fun other member => each other (List.mem_cons_of_mem _ member)
      refine ⟨final, ?_, by simpa using finalHolds⟩
      simp only [run, stepped, Option.bind_eq_bind, Option.bind_some, success]

/-! ## Conditions along a run -/

/-- Every step of the run is allowed in the state it is taken in. -/
def Throughout (step : σ → ε → Option σ) (allowed : σ → ε → Prop) : List ε → σ → Prop
  | [], _ => True
  | event :: rest, state =>
      allowed state event ∧ ∀ next, step state event = some next → Throughout step allowed rest next

/-- The run passes through the state. -/
def Visits (step : σ → ε → Option σ) : List ε → σ → σ → Prop
  | [], start, state => state = start
  | event :: rest, start, state =>
      state = start ∨ ∃ next, step start event = some next ∧ Visits step rest next state

theorem visits_start (events : List ε) (start : σ) : Visits step events start start := by
  cases events with
  | nil => rfl
  | cons event rest => exact Or.inl rfl

theorem visits_end {events : List ε} {start final : σ}
    (returned : run step events start = some final) : Visits step events start final := by
  induction events generalizing start with
  | nil => exact (Option.some.inj returned).symm
  | cons event rest ih =>
      obtain ⟨next, stepped, returned⟩ := Option.bind_eq_some_iff.mp returned
      exact Or.inr ⟨next, stepped, ih returned⟩

/-- The states the run passes through, looked at one by one. -/
def everywhere (step : σ → ε → Option σ) (check : σ → Bool) : List ε → σ → Bool
  | [], state => check state
  | event :: rest, state => check state &&
      match step state event with
      | none => true
      | some next => everywhere step check rest next

theorem everywhere_visits {check : σ → Bool} {events : List ε} {start state : σ}
    (checked : everywhere step check events start = true)
    (visited : Visits step events start state) : check state = true := by
  induction events generalizing start with
  | nil =>
      obtain rfl := visited
      exact checked
  | cons event rest ih =>
      obtain ⟨now, later⟩ := Bool.and_eq_true_iff.mp checked
      rcases visited with rfl | ⟨next, stepped, visited⟩
      · exact now
      · rw [stepped] at later
        exact ih later visited

/-- Allowed steps keep the invariant, so that it holds wherever a run of them
passes. -/
theorem throughout_visits {allowed : σ → ε → Prop} (invariant : σ → Prop)
    (preserved : ∀ state event next, invariant state → allowed state event →
      step state event = some next → invariant next) :
    ∀ (events : List ε) (start : σ), invariant start → Throughout step allowed events start →
      ∀ state, Visits step events start state → invariant state := by
  intro events
  induction events with
  | nil =>
      intro start holds _ state visited
      obtain rfl := visited
      exact holds
  | cons event rest ih =>
      intro start holds conditions state visited
      rcases conditions with ⟨now, later⟩
      rcases visited with same | visited
      · rw [same]
        exact holds
      · rcases visited with ⟨next, stepped, visited⟩
        exact ih next (preserved start event next holds now stepped) (later next stepped) state
          visited

/-- Where a step between two good states is an allowed one, the good runs are
those of allowed steps. -/
theorem visits_iff_throughout {allowed : σ → ε → Prop} (good : σ → Prop)
    (preserved : ∀ state event next, good state → allowed state event →
      step state event = some next → good next)
    (necessary : ∀ state event next, good state → step state event = some next → good next →
      allowed state event) :
    ∀ (events : List ε) (start final : σ), good start → run step events start = some final →
      ((∀ state, Visits step events start state → good state) ↔
        Throughout step allowed events start) := by
  intro events start final holds returned
  constructor
  · intro everywhere
    induction events generalizing start with
    | nil => trivial
    | cons event rest ih =>
        obtain ⟨next, stepped, returned⟩ := Option.bind_eq_some_iff.mp returned
        have nextHolds := everywhere next (Or.inr ⟨next, stepped, visits_start rest next⟩)
        refine ⟨necessary start event next holds stepped nextHolds, fun other same => ?_⟩
        obtain rfl := Option.some.inj (stepped.symm.trans same)
        exact ih next nextHolds returned fun state visited =>
          everywhere state (Or.inr ⟨next, stepped, visited⟩)
  · exact throughout_visits good preserved events start holds

end EventRun
