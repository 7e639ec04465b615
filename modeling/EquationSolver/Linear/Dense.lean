import EquationSolver.Scalar

/-!
# Dense vectors and matrices

A vector of size `n` is a `Vector α n`, a matrix the vector of its rows. Every operation is given by
the entries of its result, and each has the lemma that says so, so that proofs see functions of
indices while the program runs on arrays.

## Main definitions

* `Dense`: a matrix, with `Dense.entry` for its entries and `Dense.of` to build one
* `setEntry`, `Dense.setEntry`: a vector and a matrix with one entry replaced
* `exchange`: the exchange of two indices, and the exchanges of entries, rows and columns
* `sum`, `sumWhere`: sums in index order
* `Dense.mulVec`, `norm`: the product with a vector and the Euclidean norm
-/

namespace EquationSolver.Linear

variable {α β : Type} {m n : Nat}

@[simp] theorem get_ofFn (f : Fin n → β) (i : Fin n) : (Vector.ofFn f).get i = f i :=
  Vector.getElem_ofFn i.isLt

/-- The vector with entry `i` replaced. -/
def setEntry (v : Vector β n) (i : Fin n) (x : β) : Vector β n := v.set i x i.isLt

theorem get_setEntry (v : Vector β n) (i j : Fin n) (x : β) :
    (setEntry v i x).get j = if i = j then x else v.get j := by
  have h := @Vector.getElem_set β n v i x i.isLt j j.isLt
  simp only [Fin.val_inj] at h
  exact h

/-- An `m` by `n` matrix, stored by rows. -/
structure Dense (α : Type) (m n : Nat) where
  /-- The rows, from the top. -/
  rows : Vector (Vector α n) m

namespace Dense

/-- The entry in row `i` and column `j`. -/
def entry (A : Dense α m n) (i : Fin m) (j : Fin n) : α := (A.rows.get i).get j

instance : CoeFun (Dense α m n) fun _ => Fin m → Fin n → α := ⟨entry⟩

/-- The matrix with the given entries. -/
def of (f : Fin m → Fin n → α) : Dense α m n := ⟨.ofFn fun i => .ofFn (f i)⟩

@[simp] theorem of_apply (f : Fin m → Fin n → α) (i : Fin m) (j : Fin n) : of f i j = f i j := by
  simp [of, entry]

@[ext] theorem ext {A B : Dense α m n} (h : ∀ i j, A i j = B i j) : A = B := by
  obtain ⟨rows⟩ := A
  obtain ⟨rows'⟩ := B
  congr 1
  ext i hi j hj
  exact h ⟨i, hi⟩ ⟨j, hj⟩

/-- The matrix with the entry in row `i` and column `j` replaced. -/
def setEntry (A : Dense α m n) (i : Fin m) (j : Fin n) (x : α) : Dense α m n :=
  ⟨Linear.setEntry A.rows i (Linear.setEntry (A.rows.get i) j x)⟩

theorem setEntry_apply (A : Dense α m n) (i i' : Fin m) (j j' : Fin n) (x : α) :
    A.setEntry i j x i' j' = if i = i' ∧ j = j' then x else A i' j' := by
  unfold setEntry entry
  rw [get_setEntry]
  by_cases h : i = i'
  · subst h
    simp [get_setEntry]
  · simp [h]

/-- The entries as a list of rows. -/
def toLists (A : Dense α m n) : List (List α) := A.rows.toList.map Vector.toList

end Dense

/-! ## Exchanges -/

/-- The index that takes the place of `i` when `p` and `q` are exchanged. -/
def exchange (p q i : Fin n) : Fin n := if i = p then q else if i = q then p else i

@[simp] theorem exchange_self (p i : Fin n) : exchange p p i = i := by
  unfold exchange; split <;> simp_all

@[simp] theorem exchange_exchange (p q i : Fin n) : exchange p q (exchange p q i) = i := by
  unfold exchange; split <;> (try split) <;> simp_all

/-- The vector with two entries exchanged. -/
def exchangeEntries (v : Vector β n) (p q : Fin n) : Vector β n :=
  .ofFn fun i => v.get (exchange p q i)

@[simp] theorem get_exchangeEntries (v : Vector β n) (p q i : Fin n) :
    (exchangeEntries v p q).get i = v.get (exchange p q i) := get_ofFn _ i

/-- The matrix with two rows exchanged. -/
def Dense.exchangeRows (A : Dense α m n) (p q : Fin m) : Dense α m n :=
  of fun i j => A (exchange p q i) j

@[simp] theorem Dense.exchangeRows_apply (A : Dense α m n) (p q i : Fin m) (j : Fin n) :
    A.exchangeRows p q i j = A (exchange p q i) j := of_apply _ i j

/-- The matrix with two columns exchanged. -/
def Dense.exchangeColumns (A : Dense α m n) (p q : Fin n) : Dense α m n :=
  of fun i j => A i (exchange p q j)

@[simp] theorem Dense.exchangeColumns_apply (A : Dense α m n) (p q : Fin n) (i : Fin m)
    (j : Fin n) : A.exchangeColumns p q i j = A i (exchange p q j) := of_apply _ i j

/-! ## Sums and products -/

section

variable [Add α] [Zero α]

/-- The sum of the values at the indices with a property, added to zero in index order. -/
def sumWhere (p : Fin n → Prop) [DecidablePred p] (f : Fin n → α) : α :=
  Fin.foldl n (fun s j => if p j then s + f j else s) 0

/-- The sum of the values at all indices, added to zero in index order. -/
def sum (f : Fin n → α) : α := Fin.foldl n (fun s j => s + f j) 0

/-- The sums of equal values are equal; the values at other indices do not matter. -/
theorem sumWhere_congr {p : Fin n → Prop} [DecidablePred p] {f g : Fin n → α}
    (h : ∀ j, p j → f j = g j) : sumWhere p f = sumWhere p g := by
  unfold sumWhere
  congr
  funext s j
  split
  · rw [h j ‹_›]
  · rfl

variable [Mul α]

/-- The product of a matrix with a vector. -/
def Dense.mulVec (A : Dense α m n) (x : Vector α n) : Vector α m :=
  .ofFn fun i => sum fun j => A i j * x.get j

@[simp] theorem Dense.get_mulVec (A : Dense α m n) (x : Vector α n) (i : Fin m) :
    (A.mulVec x).get i = sum fun j => A i j * x.get j := get_ofFn _ i

/-- The Euclidean norm: the square root of the sum of the squares. -/
def norm [SquareRoot α] (v : Vector α n) : α := squareRoot (sum fun i => v.get i * v.get i)

end

/-- The vector of the differences of the entries. -/
def difference [Sub α] (v w : Vector α n) : Vector α n := .ofFn fun i => v.get i - w.get i

@[simp] theorem get_difference [Sub α] (v w : Vector α n) (i : Fin n) :
    (difference v w).get i = v.get i - w.get i := get_ofFn _ i

end EquationSolver.Linear
