import EquationSolver.Linear.Swap
import EquationSolver.Proofs.Linear.Factorization

/-!
# The history of a factorization

A factorization exchanges rows where a diagonal entry counts as zero, and at no other time. The
multipliers found before travel with their rows, and the order of the rows is composed with each
exchange as it is made. Whatever the history, the exchanges made one after the other on the given
matrix alone put its rows in that order, and there it is the product of the factors.

## Main definitions

* `Exchange.apply?`, `replay?`: an exchange, and a history of them, made on a matrix
* `Factoring.ExchangedAt`: an exchange that a stage made on a diagonal entry that counts as zero

## Main results

* `Factoring.replay?_exchanges`: the order of the rows is what the history makes of them
* `Factoring.mem_exchanges_iff`: the exchanges are those made on entries that count as zero
* `factorize_product`: the product of the factors, for every history
-/

namespace EquationSolver.Linear

variable {α : Type} {m n : Nat}

/-! ## Making exchanges again -/

/-- The matrix with an exchange made, if its rows or columns exist. -/
def Exchange.apply? (A : Dense α m n) : Exchange → Option (Dense α m n)
  | .rows _ p q => swapRows? A p q
  | .columns _ p q => swapColumns? A p q

/-- The matrix with a history of exchanges made, in order. -/
def replay? (history : List Exchange) (A : Dense α m n) : Option (Dense α m n) :=
  history.foldlM Exchange.apply? A

theorem replay?_append (earlier later : List Exchange) (A : Dense α m n) :
    replay? (earlier ++ later) A = (replay? earlier A).bind (replay? later) :=
  List.foldlM_append

@[simp] theorem position?_cast (i : Fin n) : position? n (i : Nat) = some i := by
  have up : ¬ ((i : Nat) : Int) < 0 := Int.not_lt.mpr (Int.natCast_nonneg i)
  simp [position?, up]

@[simp] theorem swapRows?_cast (A : Dense α n n) (p q : Fin n) :
    swapRows? A (p : Nat) (q : Nat) = some (A.exchangeRows p q) := by
  unfold swapRows?
  split
  · rename_i same
    obtain rfl : p = q := Fin.ext (Int.ofNat_inj.mp same)
    rw [exchangeRows_self]
  · simp

theorem replay?_exchangesAt (A : Dense α n n) (k p : Fin n) :
    replay? (exchangesAt k p k) A = some (A.exchangeRows k p) := by
  by_cases same : p = k
  · subst same
    simp [exchangesAt, replay?]
  · simp [exchangesAt, same, replay?, Exchange.apply?]

/-! ## The exchanges of a factorization -/

/-- A stage makes an exchange if the diagonal entry counts as zero, and else none. -/
theorem mem_exchangesAt_iff [LE α] [DecidableLE α] [LT α] [DecidableLT α] [OfScientific α]
    [Scalar α] {A : Dense α n n} {k p : Fin n} {x : Exchange}
    (pivot : Pivoting.natural.pivot A k = (p, k)) (notTiny : ¬ IsTiny (A p k)) :
    x ∈ exchangesAt k p k ↔ IsTiny (A k k) ∧ x = .rows k k (largestInColumn A k) := by
  have row : (if IsTiny (A k k) then largestInColumn A k else k) = p :=
    congrArg Prod.fst pivot
  split at row
  · rename_i tiny
    subst row
    -- The diagonal entry counts as zero and the pivot does not, so that the pivot is another one.
    have other : largestInColumn A k ≠ k := by
      intro same
      rw [same] at notTiny
      exact notTiny tiny
    simp [exchangesAt, other, tiny]
  · rename_i kept
    subst row
    simp [exchangesAt, kept]

namespace Factoring

section

variable [Sub α] [Mul α] [Div α] [LE α] [DecidableLE α] [LT α] [DecidableLT α] [OfScientific α]
  [Scalar α] {A : Dense α n n} {F : Factoring α n}

/-- Made on the given matrix, the exchanges put its rows in the order reached. -/
theorem replay?_exchanges {k : Nat} {hk : k ≤ n}
    (h : stages Factoring.stage (start A) k hk = .ok F) :
    replay? F.exchanges A = some (.of fun i j => A (F.order.get i) j) := by
  refine stages_induction
    (P := fun _ F => replay? F.exchanges A = some (.of fun i j => A (F.order.get i) j))
    ?_ (fun k F F' before done => ?_) k hk F h
  · change some A = _
    congr 1
    ext
    simp [start]
  · obtain ⟨p, -, -, rfl⟩ := brought_of_stage done
    change replay? (F.exchanges ++ exchangesAt k p k) A =
      some (.of fun i j => A ((F.bring k p).order.get i) j)
    rw [replay?_append, before, Option.bind_some, replay?_exchangesAt]
    -- Row `i` is now the one that the exchange brought there, in the order reached before.
    congr 1
    ext
    simp

/-- Stage `k` found a diagonal entry that counts as zero, and exchanged its row with that of the
first largest entry from there down. -/
def ExchangedAt (A : Dense α n n) (k : Fin n) (x : Exchange) : Prop :=
  ∃ F, stages stage (start A) k Fin.is_le' = .ok F ∧ IsTiny (F.combined k k) ∧
    x = .rows k k (largestInColumn F.combined k)

/-- The exchanges made so far are those of the stages done. -/
theorem mem_exchanges_iff {k : Nat} {hk : k ≤ n} {x : Exchange}
    (h : stages Factoring.stage (start A) k hk = .ok F) :
    x ∈ F.exchanges ↔ ∃ j : Fin n, (j : Nat) < k ∧ ExchangedAt A j x := by
  induction k generalizing F with
  | zero =>
    cases h
    simp [start]
  | succ k ih =>
    rw [stages] at h
    rcases reached : stages Factoring.stage (start A) k (Nat.le_of_succ_le hk) with e | G
    · rw [reached] at h
      cases h
    rw [reached] at h
    obtain ⟨p, pivot, notTiny, rfl⟩ := stage_eq_ok_iff.mp h
    change x ∈ G.exchanges ++ exchangesAt ⟨k, hk⟩ p ⟨k, hk⟩ ↔ _
    -- A stage starts from one state only, so that its exchange is known from the state reached.
    have here : ExchangedAt A ⟨k, hk⟩ x ↔ IsTiny (G.combined ⟨k, hk⟩ ⟨k, hk⟩) ∧
        x = .rows k k (largestInColumn G.combined ⟨k, hk⟩) := by
      simp only [ExchangedAt, reached, Except.ok.injEq, exists_eq_left']
    rw [List.mem_append, ih reached, mem_exchangesAt_iff pivot notTiny, ← here]
    constructor
    · rintro (⟨j, done, exchanged⟩ | exchanged)
      · exact ⟨j, Nat.lt_succ_of_lt done, exchanged⟩
      · exact ⟨⟨k, hk⟩, Nat.lt_succ_self k, exchanged⟩
    · rintro ⟨j, done, exchanged⟩
      rcases lt_or_eq_of_lt_succ (k := ⟨k, hk⟩) done with before | rfl
      · exact .inl ⟨j, before, exchanged⟩
      · exact .inr exchanged

end

end Factoring

/-! ## The product of the factors -/

variable {K : Type} [Field K] [LinearOrder K] [IsStrictOrderedRing K]

/-- **The product of the factors.** Over an ordered field the factors that a factorization finds
have the given matrix as their product, with row `i` of the product in row `order i` of the matrix.
The order is what the exchanges make of the rows, one after the other, and the exchanges are those
of the stages that met a diagonal entry that counts as zero. -/
theorem factorize_product (A : Dense K n n) (F : LU K n) (factored : factorize A = .ok F) :
    (∀ i j, ∑ l, F.lower i l * F.upper l j = A (F.order.get i) j) ∧
    ∃ G, factorStages A = .ok G ∧ G.factors = F ∧
      replay? G.exchanges A = some (.of fun i j => A (F.order.get i) j) ∧
      ∀ x, x ∈ G.exchanges ↔ ∃ k, Factoring.ExchangedAt A k x := by
  obtain ⟨G, done, rfl⟩ := factorize_eq_ok_iff.mp factored
  refine ⟨lower_mul_upper factored, G, done, rfl, Factoring.replay?_exchanges done, fun x => ?_⟩
  rw [Factoring.mem_exchanges_iff done]
  simp only [Fin.is_lt, true_and]

/-- A matrix that takes two exchanges, the second of which moves a multiplier. -/
def twoExchanges : Dense ℚ 3 3 := ⟨#v[#v[0, 3, 1], #v[2, 1, 1], #v[4, 2, 6]]⟩

theorem factorize_product_twoExchanges : ∃ F, factorize twoExchanges = .ok F ∧
    F.order = #v[2, 0, 1] ∧ F.lower 2 0 = 1 / 2 ∧
    (∀ i j, ∑ l, F.lower i l * F.upper l j = twoExchanges (F.order.get i) j) ∧
    replay? [.rows 0 0 2, .rows 1 1 2] twoExchanges =
      some (.of fun i j => twoExchanges (F.order.get i) j) ∧
    ∃ k, Factoring.ExchangedAt twoExchanges k (.rows 1 1 2) := by
  have found : (factorStages twoExchanges).toOption.map (fun F => (F.exchanges, F.order)) =
      some ([.rows 0 0 2, .rows 1 1 2], #v[2, 0, 1]) := by
    decide +kernel
  have moved : (factorize twoExchanges).toOption.map (fun F => F.lower 2 0) = some (1 / 2) := by
    decide +kernel
  match factored : factorize twoExchanges with
  | .error cause => rw [factored] at moved; cases moved
  | .ok F =>
    obtain ⟨product, G, done, rfl, replayed, exchanged⟩ :=
      factorize_product twoExchanges F factored
    rw [factored] at moved
    rw [done] at found
    obtain ⟨history, order⟩ := Prod.mk.inj (Option.some.inj found)
    rw [history] at replayed exchanged
    exact ⟨_, rfl, order, Option.some.inj moved, product, replayed, (exchanged _).mp (by simp)⟩

end EquationSolver.Linear
