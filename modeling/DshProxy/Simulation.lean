import DshProxy.Transitions

/-! Two machines side by side. Where every step of the one can be matched by steps of
the other, in states that stay related, every run of the one is matched by a run of
the other; so what has been proved of all runs of the second can be read off the
first, through the relation. -/
namespace DshProxy.Transitions

section Simulation
variable {step : σ → α → Option σ} {spec : τ → β → Option τ} {ok : σ → α → Prop} {fine : τ → β → Prop}
  {related : σ → τ → Prop} {s s' : σ} {t : τ} {actions : List α}

/-- The second machine can keep up with a step of the first, by a permitted run. -/
def Matched (spec : τ → β → Option τ) (fine : τ → β → Prop) (related : σ → τ → Prop) (t : τ) (next : σ) :
    Prop :=
  ∃ acts u, run spec t acts = some u ∧ Meets spec fine t acts ∧ related next u

/-- Whatever the first machine is permitted to do, the second keeps up with. -/
def Simulates (step : σ → α → Option σ) (ok : σ → α → Prop) (spec : τ → β → Option τ)
    (fine : τ → β → Prop) (related : σ → τ → Prop) : Prop :=
  ∀ s a next t, related s t → ok s a → step s a = some next → Matched spec fine related t next

/-- A step that the second machine does not see. -/
theorem Matched.stutter (still : related s t) : Matched spec fine related t s :=
  ⟨[], t, rfl, trivial, still⟩

/-- A step that the second machine takes too. -/
theorem Matched.follow {u : τ} {b : β} (stepped : spec t b = some u) (allowed : fine t b)
    (after : related s u) : Matched spec fine related t s :=
  ⟨[b], u, run_cons.mpr ⟨u, stepped, rfl⟩, ⟨allowed, fun _ _ => trivial⟩, after⟩

/-- What is related to the next state may be looked at as another state. -/
theorem Matched.imp {next other : σ} (matched : Matched spec fine related t next)
    (also : ∀ u, related next u → related other u) : Matched spec fine related t other := by
  obtain ⟨acts, u, ran, allowed, after⟩ := matched
  exact ⟨acts, u, ran, allowed, also u after⟩

theorem Simulates.along (simulates : Simulates step ok spec fine related) (start : related s t)
    (permitted : Meets step ok s actions) (ran : run step s actions = some s') :
    Matched spec fine related t s' := by
  induction actions generalizing s t with
  | nil =>
    cases ran
    exact .stutter start
  | cons a rest ih =>
    obtain ⟨mid, stepped, later⟩ := run_cons.mp ran
    obtain ⟨first, u, before, allowed, matched⟩ := simulates s a mid t start permitted.1 stepped
    obtain ⟨second, v, after, allowed', last⟩ := ih matched (permitted.2 mid stepped) later
    exact ⟨first ++ second, v, run_append.mpr ⟨u, before, after⟩, allowed.append before allowed', last⟩

/-- What every run of the second machine ends in shows in every run of the first. -/
theorem Simulates.always {inv : τ → Prop} (simulates : Simulates step ok spec fine related)
    (start : related s t) (permitted : Meets step ok s actions) (ran : run step s actions = some s')
    (holds : ∀ acts u, run spec t acts = some u → Meets spec fine t acts → inv u) :
    ∃ u, related s' u ∧ inv u := by
  obtain ⟨acts, u, matched, allowed, last⟩ := simulates.along start permitted ran
  exact ⟨u, last, holds acts u matched allowed⟩

end Simulation

end DshProxy.Transitions
