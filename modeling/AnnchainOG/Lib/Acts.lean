import Mathlib.Tactic.Common

/-!
# Acts

An act changes a state and puts something out, or fails.
-/

namespace AnnchainOG

abbrev Act (ε σ β : Type) := σ → Except ε (σ × List β)

namespace Act

variable {ε σ β : Type} {first second : Act ε σ β} {state between after : σ} {out : List β}

def skip : Act ε σ β := fun state => .ok (state, [])

def fail (failure : ε) : Act ε σ β := fun _ => .error failure

def andThen (first second : Act ε σ β) : Act ε σ β := fun state =>
  match first state with
  | .error failure => .error failure
  | .ok (between, out) => (second between).map fun result => (result.1, out ++ result.2)

theorem andThen_of_ok (isFirst : first state = .ok (between, out)) :
    first.andThen second state =
      (second between).map fun result => (result.1, out ++ result.2) := by
  rw [andThen, isFirst]

/-!
## Acts that succeed
-/

/-- From every state that meets `pre` the act succeeds, and leaves a state that meets `post`. -/
def Total (act : Act ε σ β) (pre post : σ → Prop) : Prop :=
  ∀ state, pre state → ∃ after out, act state = .ok (after, out) ∧ post after

variable {pre middle post : σ → Prop}

theorem Total.andThen (isFirst : first.Total pre middle) (isSecond : second.Total middle post) :
    (first.andThen second).Total pre post := by
  intro state holds
  obtain ⟨between, earlier, firstDone, reached⟩ := isFirst state holds
  obtain ⟨after, later, secondDone, finished⟩ := isSecond between reached
  refine ⟨after, earlier ++ later, ?_, finished⟩
  rw [andThen_of_ok firstDone, secondDone]
  rfl

theorem total_skip (implied : ∀ state, pre state → post state) :
    (skip : Act ε σ β).Total pre post := by
  intro state holds
  exact ⟨state, [], rfl, implied state holds⟩

end Act

end AnnchainOG
