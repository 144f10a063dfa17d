import Mathlib.Logic.Function.Basic

/-! Runs of a machine given by a step function that refuses an action with
`none`. Every safety result of the development is one induction over `run`;
the rules here are the only places where that induction is done. -/
namespace DshProxy.Transitions

/-- Perform the actions in order; refused as soon as one of them is. -/
def run (step : σ → α → Option σ) : σ → List α → Option σ
  | s, [] => some s
  | s, a :: rest => (step s a).bind (run step · rest)

/-- Every action of the list, taken at the state the run has come to, meets
the condition. Actions behind a refused one are not constrained. -/
def Meets (step : σ → α → Option σ) (ok : σ → α → Prop) : σ → List α → Prop
  | _, [] => True
  | s, a :: rest => ok s a ∧ ∀ next, step s a = some next → Meets step ok next rest

/-- A run given action by action can be checked against a decidable condition. -/
instance Meets.decidable (step : σ → α → Option σ) (ok : σ → α → Prop)
    [∀ s a, Decidable (ok s a)] : ∀ s actions, Decidable (Meets step ok s actions)
  | _, [] => isTrue trivial
  | s, a :: rest =>
    match stepped : step s a with
    | none => decidable_of_iff (ok s a) (by simp [Meets, stepped])
    | some next =>
      have := Meets.decidable step ok next rest
      decidable_of_iff (ok s a ∧ Meets step ok next rest) (by simp [Meets, stepped])

section Runs
variable {step : σ → α → Option σ} {ok : σ → α → Prop} {s t : σ} {actions : List α}

@[simp] theorem run_nil : run step s [] = some s := rfl

theorem run_cons {a : α} {rest : List α} :
    run step s (a :: rest) = some t ↔ ∃ mid, step s a = some mid ∧ run step mid rest = some t := by
  simp [run, Option.bind_eq_some_iff]

theorem run_append {first second : List α} :
    run step s (first ++ second) = some t ↔
      ∃ mid, run step s first = some mid ∧ run step mid second = some t := by
  induction first generalizing s with
  | nil => simp
  | cons a rest ih =>
    simp only [List.cons_append, run_cons, ih]
    constructor
    · rintro ⟨mid, stepped, later, ran, last⟩
      exact ⟨later, ⟨mid, stepped, ran⟩, last⟩
    · rintro ⟨later, ⟨mid, stepped, ran⟩, last⟩
      exact ⟨mid, stepped, later, ran, last⟩

/-- A run that has been evaluated, and what was found at its end. -/
theorem run_reaches {p : σ → Prop} [DecidablePred p]
    (checked : ((run step s actions).any fun t => decide (p t)) = true) :
    ∃ t, run step s actions = some t ∧ p t := by
  obtain ⟨t, ran, holds⟩ := (Option.any_eq_true _ _).mp checked
  exact ⟨t, ran, of_decide_eq_true holds⟩

/-- What every permitted step preserves holds at the end of a permitted run. -/
theorem run_preserves_where (inv : σ → Prop)
    (preserved : ∀ s a next, inv s → ok s a → step s a = some next → inv next)
    (holds : inv s) (permitted : Meets step ok s actions) (ran : run step s actions = some t) :
    inv t := by
  induction actions generalizing s with
  | nil =>
    cases ran
    exact holds
  | cons a rest ih =>
    obtain ⟨mid, stepped, later⟩ := run_cons.mp ran
    exact ih (preserved s a mid holds permitted.1 stepped) (permitted.2 mid stepped) later

/-- A condition that holds of the actions whatever the state is met. -/
theorem meets_of_mem (always : ∀ a ∈ actions, ∀ s, ok s a) : Meets step ok s actions := by
  induction actions generalizing s with
  | nil => trivial
  | cons a rest ih =>
    refine ⟨always a (by simp) s, fun _ _ => ih fun b member => ?_⟩
    exact always b (by simp [member])

/-- A condition that asks for less is met along the same runs. -/
theorem Meets.mono {also : σ → α → Prop} (weaker : ∀ s a, ok s a → also s a)
    (met : Meets step ok s actions) : Meets step also s actions := by
  induction actions generalizing s with
  | nil => trivial
  | cons a rest ih => exact ⟨weaker s a met.1, fun next stepped => ih (met.2 next stepped)⟩

/-- A condition that follows from another one in the states that the other one
leads to is met along with it. -/
theorem Meets.imp_where {also : σ → α → Prop} (inv : σ → Prop)
    (preserved : ∀ s a next, inv s → ok s a → step s a = some next → inv next)
    (gives : ∀ s a next, inv s → ok s a → step s a = some next → also s a) (holds : inv s)
    (ran : run step s actions = some t) (met : Meets step ok s actions) :
    Meets step also s actions := by
  induction actions generalizing s with
  | nil => trivial
  | cons a rest ih =>
    obtain ⟨mid, stepped, later⟩ := run_cons.mp ran
    refine ⟨gives s a mid holds met.1 stepped, fun next stepped' => ?_⟩
    obtain rfl : mid = next := Option.some.inj (stepped.symm.trans stepped')
    exact ih (preserved s a mid holds met.1 stepped) later (met.2 mid stepped)

/-- Two conditions met along a run are met together. -/
theorem Meets.and {also : σ → α → Prop} (first : Meets step ok s actions)
    (second : Meets step also s actions) :
    Meets step (fun s a => ok s a ∧ also s a) s actions := by
  induction actions generalizing s with
  | nil => trivial
  | cons a rest ih =>
    refine ⟨⟨first.1, second.1⟩, fun next stepped => ?_⟩
    exact ih (first.2 next stepped) (second.2 next stepped)

/-- A condition met along two runs, one after the other. -/
theorem Meets.append {first second : List α} (before : Meets step ok s first)
    (ran : run step s first = some t) (after : Meets step ok t second) :
    Meets step ok s (first ++ second) := by
  induction first generalizing s with
  | nil =>
    cases ran
    exact after
  | cons a rest ih =>
    obtain ⟨mid, stepped, later⟩ := run_cons.mp ran
    refine ⟨before.1, fun next stepped' => ?_⟩
    obtain rfl : mid = next := Option.some.inj (stepped.symm.trans stepped')
    exact ih (before.2 mid stepped) later

/-- Two conditions that come to the same in every state a permitted run comes to
are met along the same permitted runs. -/
theorem meets_iff_where {one two : σ → α → Prop} (inv : σ → Prop)
    (preserved : ∀ s a next, inv s → ok s a → step s a = some next → inv next)
    (exactly : ∀ s a next, inv s → ok s a → step s a = some next → (one s a ↔ two s a))
    (holds : inv s) (permitted : Meets step ok s actions) (ran : run step s actions = some t) :
    Meets step one s actions ↔ Meets step two s actions := by
  constructor
  · intro met
    refine (permitted.and met).imp_where inv (fun s a next holds both stepped => ?_)
      (fun s a next holds both stepped => ?_) holds ran
    · exact preserved s a next holds both.1 stepped
    · exact (exactly s a next holds both.1 stepped).mp both.2
  · intro met
    refine (permitted.and met).imp_where inv (fun s a next holds both stepped => ?_)
      (fun s a next holds both stepped => ?_) holds ran
    · exact preserved s a next holds both.1 stepped
    · exact (exactly s a next holds both.1 stepped).mpr both.2

/-- A block of actions that brings a state one stage further, repeated. -/
theorem run_repeated {block : List α} {limit count : Nat} (stage : Nat → σ → Prop)
    (once : ∀ count s, count < limit → stage count s →
      ∃ next, run step s block = some next ∧ stage (count + 1) next ∧ Meets step ok s block)
    (reached : stage count s) (more : Nat) (room : count + more ≤ limit) :
    ∃ next, run step s (List.replicate more block).flatten = some next ∧
      stage (count + more) next ∧ Meets step ok s (List.replicate more block).flatten := by
  induction more generalizing s count with
  | zero => exact ⟨s, rfl, reached, trivial⟩
  | succ more ih =>
    obtain ⟨mid, ran, further, met⟩ := once count s (by omega) reached
    obtain ⟨next, later, last, rest⟩ := ih further (by omega)
    rw [List.replicate_succ, List.flatten_cons]
    refine ⟨next, run_append.mpr ⟨mid, ran, later⟩, ?_, met.append ran rest⟩
    rwa [Nat.add_right_comm] at last

/-- A condition met along a run is met at each of its steps. -/
theorem Meets.of_append {first rest : List α} {a : α} (met : Meets step ok s (first ++ a :: rest))
    (ran : run step s first = some t) : ok t a := by
  induction first generalizing s with
  | nil =>
    cases ran
    exact met.1
  | cons b first ih =>
    obtain ⟨mid, stepped, later⟩ := run_cons.mp ran
    exact ih (met.2 mid stepped) later

/-- What every step preserves holds at the end of every run. -/
theorem run_preserves (inv : σ → Prop)
    (preserved : ∀ s a next, inv s → step s a = some next → inv next)
    (holds : inv s) (ran : run step s actions = some t) : inv t :=
  run_preserves_where inv (fun s a next holds _ stepped => preserved s a next holds stepped) holds
    (meets_of_mem fun _ _ _ => trivial : Meets step (fun _ _ => True) s actions) ran

/-- Where a condition on one step decides whether the step keeps a property,
the property holds in every state of a run exactly when every step of it meets
the condition. -/
theorem always_iff_meets (inv good : σ → Prop)
    (preserved : ∀ s a next, inv s → step s a = some next → inv next)
    (exactly : ∀ s a next, inv s → good s → step s a = some next → (ok s a ↔ good next))
    (holds : inv s) (start : good s) (ran : run step s actions = some t) :
    (∀ before, before <+: actions → ∀ mid, run step s before = some mid → good mid) ↔
      Meets step ok s actions := by
  induction actions generalizing s with
  | nil =>
    refine ⟨fun _ => trivial, fun _ before short mid ran => ?_⟩
    obtain rfl := List.prefix_nil.mp short
    cases ran
    exact start
  | cons a rest ih =>
    obtain ⟨mid, stepped, later⟩ := run_cons.mp ran
    have decided := exactly s a mid holds start stepped
    have inner (kept : good mid) := ih (preserved s a mid holds stepped) kept later
    constructor
    · intro always
      have kept : good mid :=
        always [a] (by simp [List.cons_prefix_cons]) mid (run_cons.mpr ⟨mid, stepped, rfl⟩)
      refine ⟨decided.mpr kept, fun next stepped' => ?_⟩
      obtain rfl : mid = next := Option.some.inj (stepped.symm.trans stepped')
      refine (inner kept).mp fun before short state ran => ?_
      exact always (a :: before) (List.cons_prefix_cons.mpr ⟨rfl, short⟩) state
        (run_cons.mpr ⟨mid, stepped, ran⟩)
    · rintro ⟨permitted, after⟩ before short state reached
      have kept := decided.mp permitted
      cases before with
      | nil =>
        cases reached
        exact start
      | cons first before =>
        obtain ⟨rfl, shorter⟩ := List.cons_prefix_cons.mp short
        obtain ⟨next, stepped', reached'⟩ := run_cons.mp reached
        obtain rfl : mid = next := Option.some.inj (stepped.symm.trans stepped')
        exact (inner kept).mpr (after mid stepped) before shorter state reached'

end Runs

section TwoRuns
variable {step : σ → α → Option σ} {ok : σ → α → Prop} {event : σ → α → Option ε}
  {shown : σ → α → Option ω} {view : σ → ν} {inv : σ → Prop} {s s' t t' : σ}
  {actions actions' : List α}

/-- Steps that are no event leave the view alone and show nothing. -/
def Unseen (step : σ → α → Option σ) (ok : σ → α → Prop) (event : σ → α → Option ε)
    (shown : σ → α → Option ω) (view : σ → ν) (inv : σ → Prop) : Prop :=
  ∀ s a next, inv s → ok s a → step s a = some next → event s a = none →
    view next = view s ∧ shown s a = none

/-- The same event in two states with the same view leads to the same view, and
shows the same. -/
def Seen (step : σ → α → Option σ) (ok : σ → α → Prop) (event : σ → α → Option ε)
    (shown : σ → α → Option ω) (view : σ → ν) (inv : σ → Prop) : Prop :=
  ∀ s a next s' a' next' e, inv s → ok s a → step s a = some next → event s a = some e →
    inv s' → ok s' a' → step s' a' = some next' → event s' a' = some e → view s = view s' →
    view next = view next' ∧ shown s a = shown s' a'

end TwoRuns

end DshProxy.Transitions
