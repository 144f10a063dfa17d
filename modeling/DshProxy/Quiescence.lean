import DshProxy.Transitions
import Mathlib.Algebra.BigOperators.Group.Finset.Basic
import Mathlib.Data.Set.Card

/-! Machines that come to rest. Of a machine's actions some are its own, taken without
anyone asking. Where each of these uses up some of a stock of work, there is an end to
them, in whatever order they are taken; and the end is a state in which none of them
can be taken any more. What is left to show of a machine is what holds there. -/
namespace DshProxy.Transitions

section Quiescence
variable {step : σ → α → Option σ} {own : α → Prop} {inv fine : σ → Prop} {work : σ → Nat} {s t : σ}
  {actions : List α}

/-- None of the machine's own actions can be taken. -/
def Rests (step : σ → α → Option σ) (own : α → Prop) (s : σ) : Prop := ∀ a, own a → step s a = none

/-- The machine's own actions use up its work, as long as its states are fine; and
once they are not they never are again. -/
structure Tires (step : σ → α → Option σ) (own : α → Prop) (inv fine : σ → Prop) (work : σ → Nat) :
    Prop where
  keeps : ∀ s a next, inv s → own a → step s a = some next → inv next
  before : ∀ s a next, inv s → own a → step s a = some next → fine next → fine s
  spends : ∀ s a next, inv s → own a → step s a = some next → fine next → work next < work s

theorem Tires.fine_before (tires : Tires step own inv fine work) (holds : inv s)
    (all : ∀ a ∈ actions, own a) (ran : run step s actions = some t) (last : fine t) : fine s := by
  induction actions generalizing s with
  | nil =>
    cases ran
    exact last
  | cons a rest ih =>
    obtain ⟨mid, stepped, later⟩ := run_cons.mp ran
    have mine := all a (by simp)
    have after := ih (tires.keeps s a mid holds mine stepped) (fun b member => all b (by simp [member])) later
    exact tires.before s a mid holds mine stepped after

/-- In whatever order the machine takes its own actions, there are no more of them
than there is work. -/
theorem Tires.length_le (tires : Tires step own inv fine work) (holds : inv s)
    (all : ∀ a ∈ actions, own a) (ran : run step s actions = some t) (last : fine t) :
    actions.length + work t ≤ work s := by
  induction actions generalizing s with
  | nil =>
    cases ran
    simp
  | cons a rest ih =>
    obtain ⟨mid, stepped, later⟩ := run_cons.mp ran
    have mine := all a (by simp)
    have kept := tires.keeps s a mid holds mine stepped
    have others : ∀ b ∈ rest, own b := fun b member => all b (by simp [member])
    have spent := tires.spends s a mid holds mine stepped (tires.fine_before kept others later last)
    have left := ih kept others later
    simp only [List.length_cons]
    omega

/-- So there is a way to rest, if the states on the way are fine. -/
theorem Tires.comes_to_rest (tires : Tires step own inv fine work) (holds : inv s)
    (always : ∀ actions t, (∀ a ∈ actions, own a) → run step s actions = some t → fine t) :
    ∃ actions t, (∀ a ∈ actions, own a) ∧ run step s actions = some t ∧ Rests step own t := by
  induction amount : work s using Nat.strongRecOn generalizing s with
  | ind bound ih =>
    by_cases rests : Rests step own s
    · exact ⟨[], s, by simp, rfl, rests⟩
    · simp only [Rests, not_forall] at rests
      obtain ⟨a, mine, can⟩ := rests
      obtain ⟨mid, stepped⟩ := Option.ne_none_iff_exists'.mp can
      have one : run step s [a] = some mid := run_cons.mpr ⟨mid, stepped, rfl⟩
      have first : ∀ b ∈ [a], own b := by simpa using mine
      have spent := tires.spends s a mid holds mine stepped (always [a] mid first one)
      obtain ⟨rest, t, others, later, ending⟩ := ih (work mid) (amount ▸ spent)
        (tires.keeps s a mid holds mine stepped)
        (fun acts t all ran => always (a :: acts) t (by simpa using ⟨mine, all⟩)
          (run_cons.mpr ⟨mid, stepped, ran⟩)) rfl
      exact ⟨a :: rest, t, by simpa using ⟨mine, others⟩, run_cons.mpr ⟨mid, stepped, later⟩, ending⟩

variable {narrow : σ → α → Option σ}

/-- A run of a machine that can do less is a run of the one that can do more. -/
theorem run_widens (less : ∀ s a next, narrow s a = some next → step s a = some next)
    (ran : run narrow s actions = some t) : run step s actions = some t := by
  induction actions generalizing s with
  | nil => exact ran
  | cons a rest ih =>
    obtain ⟨mid, stepped, later⟩ := run_cons.mp ran
    exact run_cons.mpr ⟨mid, less s a mid stepped, ih later⟩

theorem meets_widens {ok : σ → α → Prop} (less : ∀ s a next, narrow s a = some next → step s a = some next)
    (permitted : Meets narrow ok s actions) (ran : run narrow s actions = some t) : Meets step ok s actions := by
  induction actions generalizing s with
  | nil => trivial
  | cons a rest ih =>
    obtain ⟨mid, stepped, later⟩ := run_cons.mp ran
    refine ⟨permitted.1, fun other did => ?_⟩
    cases (less s a mid stepped).symm.trans did
    exact ih (permitted.2 mid stepped) later

/-- A machine that can do less rests wherever the other one does. -/
theorem Rests.narrows (rests : Rests step own s)
    (less : ∀ s a next, narrow s a = some next → step s a = some next) : Rests narrow own s := by
  intro a mine
  cases stepped : narrow s a with
  | none => rfl
  | some next => exact absurd (less s a next stepped) (by simp [rests a mine])

/-- A machine that can do less tires as well; it may come to rest sooner. -/
theorem Tires.narrows (tires : Tires step own inv fine work)
    (less : ∀ s a next, narrow s a = some next → step s a = some next) : Tires narrow own inv fine work where
  keeps s a next holds mine stepped := tires.keeps s a next holds mine (less s a next stepped)
  before s a next holds mine stepped := tires.before s a next holds mine (less s a next stepped)
  spends s a next holds mine stepped := tires.spends s a next holds mine (less s a next stepped)

end Quiescence

/-- A sum of which one term has changed. -/
theorem sum_changed {names : Finset ι} {k : ι} {f g : ι → Nat} [DecidableEq ι] (member : k ∈ names)
    (elsewhere : ∀ n, n ≠ k → g n = f n) :
    ∑ n ∈ names, g n + f k = ∑ n ∈ names, f n + g k := by
  rw [← Finset.add_sum_erase names g member, ← Finset.add_sum_erase names f member]
  have rest : ∑ n ∈ names.erase k, g n = ∑ n ∈ names.erase k, f n :=
    Finset.sum_congr rfl fun n inside => elsewhere n (Finset.ne_of_mem_erase inside)
  omega

private theorem ncard_apart {f : ι → Bool} (k : ι) (finite : { n | f n = true }.Finite) :
    { n | f n = true }.ncard = { n | f n = true ∧ n ≠ k }.ncard + (f k).toNat := by
  have others : { n | f n = true ∧ n ≠ k } = { n | f n = true } \ {k} := rfl
  rw [others]
  cases holds : f k with
  | false =>
    have absent : k ∉ { n | f n = true } := by simp [holds]
    rw [Set.sdiff_singleton_eq_self absent]
    rfl
  | true =>
    have member : k ∈ { n | f n = true } := holds
    exact (Set.ncard_sdiff_singleton_add_one member finite).symm

/-- A count to which one member has come, or from which one has gone. -/
theorem ncard_changed {f g : ι → Bool} {k : ι} (finite : { n | f n = true }.Finite)
    (elsewhere : ∀ n, n ≠ k → g n = f n) :
    { n | g n = true }.Finite ∧
      { n | g n = true }.ncard + (f k).toNat = { n | f n = true }.ncard + (g k).toNat := by
  have after : { n | g n = true }.Finite := by
    refine (finite.insert k).subset fun n holds => ?_
    by_cases here : n = k
    · exact .inl here
    · exact .inr ((elsewhere n here).symm.trans holds)
  have others : { n | g n = true ∧ n ≠ k } = { n | f n = true ∧ n ≠ k } := by
    ext n
    exact and_congr_left fun away => by rw [elsewhere n away]
  have before := ncard_apart k finite
  have now := ncard_apart k after
  rw [others] at now
  exact ⟨after, by omega⟩

end DshProxy.Transitions
