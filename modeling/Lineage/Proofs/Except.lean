/-!
# Runs that may fail

How a sequence of steps in `Except` succeeds, and how it fails.
-/

namespace Lineage

variable {ε δ α β : Type} {run : Except ε α} {next : α → Except ε β}

theorem bind_eq_ok_iff {value : β} :
    (run >>= next) = .ok value ↔ ∃ middle, run = .ok middle ∧ next middle = .ok value := by
  cases run <;> simp [bind, Except.bind]

theorem bind_eq_error_iff {cause : ε} :
    (run >>= next) = .error cause ↔
      run = .error cause ∨ ∃ middle, run = .ok middle ∧ next middle = .error cause := by
  cases run <;> simp [bind, Except.bind]

theorem mapError_eq_ok_iff {map : ε → δ} {value : α} :
    run.mapError map = .ok value ↔ run = .ok value := by
  cases run with
  | error cause =>
      constructor
      all_goals
        intro failed
        cases failed
  | ok result =>
      constructor
      all_goals
        intro done
        cases done
        rfl

end Lineage
