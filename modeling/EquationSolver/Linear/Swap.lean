import EquationSolver.Linear.Dense

/-!
# Exchanges by position

Rows and columns can also be exchanged by whole numbers, where a negative one counts from the end.
The exchange of a position with itself changes nothing, whether or not the position exists.

## Main definitions

* `position?`: the index that a whole number stands for
* `swapRows?`, `swapColumns?`, `swapEntries?`: the exchanges
-/

namespace EquationSolver.Linear

variable {α : Type} {m n : Nat}

/-- The index that a whole number stands for; negative ones count from the end. -/
def position? (n : Nat) (i : Int) : Option (Fin n) :=
  let k := if i < 0 then i + n else i
  if h : 0 ≤ k ∧ k < n then some ⟨k.toNat, by omega⟩ else none

/-- The matrix with two rows exchanged, if they exist. -/
def swapRows? (A : Dense α m n) (i j : Int) : Option (Dense α m n) :=
  if i = j then some A else do return A.exchangeRows (← position? m i) (← position? m j)

/-- The matrix with two columns exchanged, if they exist. -/
def swapColumns? (A : Dense α m n) (i j : Int) : Option (Dense α m n) :=
  if i = j then some A else do return A.exchangeColumns (← position? n i) (← position? n j)

/-- The vector with two entries exchanged, if they exist. -/
def swapEntries? (v : Vector α n) (i j : Int) : Option (Vector α n) :=
  if i = j then some v else do return exchangeEntries v (← position? n i) (← position? n j)

end EquationSolver.Linear
