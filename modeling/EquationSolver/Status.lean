/-!
# Status of a run

Every solver ends with one of a few statuses, which root finding and linear systems share.

## Main definitions

* `Status`: how a run ended, with `Status.name` for its name
-/

namespace EquationSolver

/-- How a run ended. -/
inductive Status where
  | success
  | singularMatrix
  | notPositiveDefinite
  | divergence
  | maxIterationsReached
  | invalidInput
  | notImplemented
  deriving DecidableEq

/-- The name of a status in reports. -/
def Status.name : Status → String
  | success => "success"
  | singularMatrix => "singular_matrix"
  | notPositiveDefinite => "not_spd"
  | divergence => "divergence"
  | maxIterationsReached => "max_iterations_reached"
  | invalidInput => "invalid_input"
  | notImplemented => "not_implemented"

end EquationSolver
