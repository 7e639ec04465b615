import EquationSolver.Proofs.Double.SquareRoot
import EquationSolver.Proofs.Linear.Cholesky
import EquationSolver.Proofs.Linear.FirstTerminal

/-!
# The contract of linear systems

The methods raise two exceptions, from deep inside a factorization or a substitution, and a method
that is not known is found out by a third. They are stated here over computations with exceptions,
so that a report without one is a fact about their handlers. The report then says, field by field,
which methods can end in which way.

One of these facts is not to be seen from the handlers: both substitutions behind the factorization
of a symmetric matrix can raise that the matrix is singular, and neither ever does. A diagonal entry
of the factor is the root of a square that was not small, or of what is no number, and no such root
counts as zero.

## Main definitions

* `Exception`, `Raising.request`: what can be raised, and the report on a request or the exception
  that no handler caught
* `Report.Arises`: the ways in which a report comes about
* `Method.endings`, `Report.Contract`: how a method can end, and what holds of every report

## Main results

* `Raising.request_eq`: no exception is left over
* `fault_of_solveDirect`: which exception a direct method raises
* `request_contract`: every request has a report, and it keeps the contract
* `iterations_noUnknowns`: an empty vector can be a solution, and then a sweep was taken for it
-/

namespace EquationSolver.Linear

variable {n : Nat}

/-- What can be raised. -/
inductive Exception where
  /-- No method has the name that was asked for. -/
  | unknownName
  /-- A pivot counts as zero. -/
  | singular (cause : Singularity)
  /-- A matrix does not count as symmetric and positive definite. -/
  | indefinite (cause : Indefinite)

namespace Raising

/-! ## Requests with exceptions -/

/-- The method that a request names. -/
def methodOf (name : Option String) : Except Exception Method :=
  match name.bind Method.ofName? with
  | some m => .ok m
  | none => .error .unknownName

variable (s : LinearSystem Float n)

/-- The solution of a direct method. -/
def solution : DirectMethod → Except Exception (Vector Float n)
  | .gauss strategy => (gaussSolve strategy s.matrix s.rhs).mapError .singular
  | .lu => (luSolve s.matrix s.rhs).mapError .singular
  | .cholesky => do
    let L ← (cholesky s.matrix).mapError .indefinite
    let y ← (forwardSubstitute L s.rhs).mapError .singular
    (backSubstituteTransposed L y).mapError .singular

/-- The report of a direct method. What its computation raises becomes a status. -/
def direct (m : DirectMethod) : Except Exception (Report Float n) :=
  tryCatch (do return { status := .success, solution := (← solution s m).toList }) fun
    | .singular cause =>
      return { status := .singularMatrix, message := m.title ++ ": " ++ cause.message ++ "." }
    | .indefinite cause => return { status := .notPositiveDefinite, message := cause.message }
    | other => throw other

/-- The report on a request, or the exception that no handler caught. Only the look-up of the method
stands under the handler for names. -/
def request (name : Option String) (params : Option (StationaryParams Float)) (withSteps : Bool) :
    Except Exception (Report Float n) :=
  match methodOf name with
  | .error .unknownName => return .unknownMethod
  | .error other => throw other
  | .ok (.direct m) => direct s m
  | .ok (.stationary m) => return (s.solveStationary m params).report withSteps

variable {s}

theorem direct_eq (m : DirectMethod) (params : Option (StationaryParams Float)) (withSteps : Bool) :
    direct s m = .ok ((s.solve (.direct m) params).report withSteps) := by
  unfold direct solution LinearSystem.solve LinearSystem.solveDirect
  cases m with
  | gauss strategy =>
    dsimp only
    cases gaussSolve strategy s.matrix s.rhs <;> rfl
  | lu =>
    dsimp only
    cases luSolve s.matrix s.rhs <;> rfl
  | cholesky =>
    dsimp only [choleskySolve]
    rcases cholesky s.matrix with cause | L
    · rfl
    dsimp only [Except.mapError, bind, Except.bind]
    rcases forwardSubstitute L s.rhs with cause | y
    · rfl
    dsimp only
    cases backSubstituteTransposed L y <;> rfl

/-- Every exception is caught, and turned into the report of its cause. -/
theorem request_eq (name : Option String) (params : Option (StationaryParams Float))
    (withSteps : Bool) :
    request s name params withSteps = .ok (s.request name params withSteps) := by
  unfold request methodOf LinearSystem.request
  rcases name.bind Method.ofName? with - | m | m
  · rfl
  · exact direct_eq m params withSteps
  · rfl

end Raising

/-! ## Names -/

namespace Method

theorem name_of_ofName? {text : String} {m : Method} (h : ofName? text = some m) :
    m.name = text := by
  obtain ⟨⟨m', text'⟩, found, rfl⟩ := Option.map_eq_some_iff.mp h
  have listed := List.mem_of_find?_eq_some found
  have named : text' = text := by simpa using List.find?_some found
  subst named
  -- Each entry of the list has the name under which it is listed.
  have each : ∀ p ∈ named, p.1.name = p.2 := by decide
  exact each _ listed

theorem bind_ofName?_eq_some_iff {name : Option String} {m : Method} :
    name.bind ofName? = some m ↔ name = some m.name := by
  constructor
  · intro h
    obtain ⟨text, rfl, found⟩ := Option.bind_eq_some_iff.mp h
    rw [name_of_ofName? found]
  · rintro rfl
    exact ofName?_name m

/-- No two methods have the same name. -/
theorem eq_of_name {name : Option String} {m m' : Method} (h : name = some m.name)
    (h' : name = some m'.name) : m = m' := by
  rw [← bind_ofName?_eq_some_iff] at h h'
  exact Option.some_inj.mp (h.symm.trans h')

end Method

/-! ## The contract -/

/-- The statuses with which a method can end. -/
def Method.endings : Method → List Status
  | .direct (.gauss _) | .direct .lu => [.success, .singularMatrix]
  | .direct .cholesky => [.success, .notPositiveDefinite]
  | .stationary _ => [.success, .invalidInput, .divergence, .maxIterationsReached]

/-- The statuses of the reports that give a vector. -/
def Status.givesVector : List Status := [.success, .divergence, .maxIterationsReached]

/-- What holds of every report on a system with `n` unknowns. -/
structure Report.Contract (name : Option String) (params : Option (StationaryParams Float))
    (report : Report Float n) : Prop where
  /-- No method is implemented for a request exactly if none has its name. -/
  notImplemented_iff : report.status = .notImplemented ↔ ∀ m : Method, name ≠ some m.name
  /-- A method ends with one of its own statuses. -/
  status_mem_endings : ∀ m : Method, name = some m.name → report.status ∈ m.endings
  /-- A vector that is given has an entry for every unknown. -/
  length_solution : report.status ∈ Status.givesVector → report.solution.length = n
  /-- The other reports give none. -/
  solution_eq_nil : report.status ∉ Status.givesVector → report.solution = []
  /-- A direct method takes no sweeps. -/
  direct : ∀ m, name = some (Method.direct m).name → report.iterations = 0
  /-- A report that gives no vector counts no sweeps. -/
  iterations_eq_zero : report.status ∉ Status.givesVector → report.iterations = 0
  /-- An empty vector is one that is not given, unless there are no unknowns. -/
  iterations_of_nil : 0 < n → report.solution = [] → report.iterations = 0
  /-- A stationary method that gives a vector has taken a sweep, and no more than it was allowed. -/
  iterations : ∀ m, name = some (Method.stationary m).name → report.status ∈ Status.givesVector →
    ∃ p, params = some p ∧ 1 ≤ report.iterations ∧ (report.iterations : Int) ≤ p.maxIterations
  /-- A spent budget was spent in full. -/
  spent : report.status = .maxIterationsReached →
    ∃ p, params = some p ∧ (report.iterations : Int) = p.maxIterations

variable {name : Option String} {params : Option (StationaryParams Float)} {report : Report Float n}

/-- A direct method raises one of two exceptions, and which one depends on the method. -/
theorem fault_of_solveDirect {s : LinearSystem Float n} {m : DirectMethod} {fault : DirectFault}
    (h : s.solveDirect m = .error fault) :
    (∃ cause, fault = .singular cause ∧ m ≠ .cholesky) ∨
      ∃ cause, fault = .indefinite cause ∧ m = .cholesky := by
  cases m with
  | gauss strategy =>
    obtain ⟨cause, -, rfl⟩ := mapError_eq_error_iff.mp h
    exact .inl ⟨cause, rfl, nofun⟩
  | lu =>
    obtain ⟨cause, -, rfl⟩ := mapError_eq_error_iff.mp h
    exact .inl ⟨cause, rfl, nofun⟩
  | cholesky =>
    obtain ⟨fault, refused, rfl⟩ := mapError_eq_error_iff.mp h
    cases fault with
    | indefinite cause => exact .inr ⟨cause, rfl, rfl⟩
    | singular cause =>
      have never := choleskySolve_ne_singular (fun _ => Double.not_isTiny_sqrt) s.matrix s.rhs
      exact absurd refused (never cause)

/-- The ways in which a report comes about. -/
inductive Report.Arises (name : Option String) (params : Option (StationaryParams Float)) :
    Report Float n → Prop where
  | unknown : (∀ m : Method, name ≠ some m.name) → Arises name params .unknownMethod
  | solved {m : DirectMethod} (x : Vector Float n) : name = some (Method.direct m).name →
      Arises name params { status := .success, solution := x.toList }
  | singular {m : DirectMethod} {message : String} : name = some (Method.direct m).name →
      m ≠ .cholesky → Arises name params { status := .singularMatrix, message }
  | indefinite {message : String} : name = some (Method.direct .cholesky).name →
      Arises name params { status := .notPositiveDefinite, message }
  | refused {m : StationaryMethod} {message : String} : name = some (Method.stationary m).name →
      Arises name params { status := .invalidInput, message }
  | ran {m : StationaryMethod} {p : StationaryParams Float} {ending : SweepEnd}
      {x : Vector Float n} {k : Nat} {message : String}
      {steps : Option (List (SweepRecord Float n))} : name = some (Method.stationary m).name →
      params = some p → 1 ≤ k → (k : Int) ≤ p.maxIterations →
      (ending = .exhausted → (k : Int) = p.maxIterations) →
      Arises name params
        { status := ending.status, solution := x.toList, iterations := k, message, steps }

theorem arises_direct (s : LinearSystem Float n) (m : DirectMethod)
    (params : Option (StationaryParams Float)) (withSteps : Bool) :
    Report.Arises (some (Method.direct m).name) params
      ((s.solve (.direct m) params).report withSteps) := by
  unfold LinearSystem.solve
  dsimp only
  rcases solved : s.solveDirect m with fault | x
  · rcases fault_of_solveDirect solved with ⟨cause, rfl, other⟩ | ⟨cause, rfl, rfl⟩
    · exact .singular rfl other
    · exact .indefinite rfl
  · exact .solved x rfl

theorem arises_stationary (s : LinearSystem Float n) (m : StationaryMethod)
    (params : Option (StationaryParams Float)) (withSteps : Bool) :
    Report.Arises (some (Method.stationary m).name) params
      ((s.solve (.stationary m) params).report withSteps) := by
  unfold LinearSystem.solve
  dsimp only
  rcases solveStationary_cases s m params with
    ⟨-, cause, answer⟩ | ⟨-, p, rule, budget, rfl, -, counted, pos, answer⟩
  · rw [answer]
    exact .refused rfl
  rw [answer]
  rcases stationary_cases m.sweep s.matrix s.rhs rule p.tolerance budget with
    ⟨k, first, within, run⟩ | run
  · rw [run]
    refine .ran rfl rfl first.pos (counted ▸ Int.ofNat_le.mpr within) ?_
    split <;> exact nofun
  · rw [run]
    exact .ran rfl rfl pos counted.ge fun _ => counted.symm

/-- Every report comes about in one of these ways. -/
theorem arises_request (s : LinearSystem Float n) (name : Option String)
    (params : Option (StationaryParams Float)) (withSteps : Bool) :
    Report.Arises name params (s.request name params withSteps) := by
  unfold LinearSystem.request
  rcases named : name.bind Method.ofName? with - | m | m
  · refine .unknown fun m same => ?_
    rw [Method.bind_ofName?_eq_some_iff.mpr same] at named
    cases named
  · obtain rfl := Method.bind_ofName?_eq_some_iff.mp named
    exact arises_direct s m params withSteps
  · obtain rfl := Method.bind_ofName?_eq_some_iff.mp named
    exact arises_stationary s m params withSteps

/-- A report without a vector keeps the contract if its status fits its method. -/
theorem contract_of_noVector {status : Status} {message : String}
    (none : status ∉ Status.givesVector)
    (known : status = .notImplemented ↔ ∀ m : Method, name ≠ some m.name)
    (fits : ∀ m : Method, name = some m.name → status ∈ m.endings) :
    Report.Contract name params ({ status, message } : Report Float n) where
  notImplemented_iff := known
  status_mem_endings := fits
  length_solution given := absurd given none
  solution_eq_nil _ := rfl
  direct _ _ := rfl
  iterations_eq_zero _ := rfl
  iterations_of_nil _ _ := rfl
  iterations _ _ given := absurd given none
  spent all := by
    rw [show status = .maxIterationsReached from all] at none
    exact absurd (by decide) none

/-- The same of a method that is known. -/
theorem contract_of_fits {status : Status} {message : String} {m : Method}
    (named : name = some m.name) (none : status ∉ Status.givesVector)
    (known : status ≠ .notImplemented) (fits : status ∈ m.endings) :
    Report.Contract name params ({ status, message } : Report Float n) := by
  apply contract_of_noVector none
  · exact iff_of_false known fun unknown => unknown m named
  · intro m' named'
    obtain rfl := Method.eq_of_name named named'
    exact fits

theorem contract_of_solved {m : DirectMethod} {x : Vector Float n}
    (named : name = some (Method.direct m).name) :
    Report.Contract name params
      ({ status := .success, solution := x.toList } : Report Float n) where
  notImplemented_iff := iff_of_false nofun fun unknown => unknown _ named
  status_mem_endings m' named' := by
    obtain rfl := Method.eq_of_name named named'
    cases m <;> exact .head _
  length_solution _ := x.length_toList
  solution_eq_nil none := absurd (.head _) none
  direct _ _ := rfl
  iterations_eq_zero _ := rfl
  iterations_of_nil _ _ := rfl
  iterations m' named' := nomatch Method.eq_of_name named named'
  spent := nofun

/-- The ends of a run fit its method, and come with a vector. -/
theorem SweepEnd.status_mem (ending : SweepEnd) (m : StationaryMethod) :
    ending.status ∈ (Method.stationary m).endings ∧ ending.status ∈ Status.givesVector ∧
      ending.status ≠ .notImplemented := by
  cases m <;> cases ending <;> decide

theorem contract_of_ran {m : StationaryMethod} {p : StationaryParams Float} {ending : SweepEnd}
    {x : Vector Float n} {k : Nat} {message : String} {steps : Option (List (SweepRecord Float n))}
    (named : name = some (Method.stationary m).name) (given : params = some p) (pos : 1 ≤ k)
    (within : (k : Int) ≤ p.maxIterations)
    (spent : ending = .exhausted → (k : Int) = p.maxIterations) :
    Report.Contract name params
      { status := ending.status, solution := x.toList, iterations := k, message, steps } := by
  obtain ⟨fits, vector, known⟩ := ending.status_mem m
  exact {
    notImplemented_iff := iff_of_false known fun unknown => unknown _ named
    status_mem_endings := by
      intro m' named'
      obtain rfl := Method.eq_of_name named named'
      exact fits
    length_solution := fun _ => x.length_toList
    solution_eq_nil := fun none => absurd vector none
    direct := fun m' named' => nomatch Method.eq_of_name named named'
    iterations_eq_zero := fun none => absurd vector none
    iterations_of_nil := by
      intro unknowns empty
      have length := x.length_toList
      rw [show x.toList = [] from empty] at length
      exact absurd length unknowns.ne
    iterations := fun _ _ _ => ⟨p, given, pos, within⟩
    spent := fun all => ⟨p, given, spent (SweepEnd.status_eq_maxIterationsReached_iff.mp all)⟩ }

/-- The contract is kept in whichever way a report comes about. -/
theorem Report.Arises.contract (h : Report.Arises name params report) :
    report.Contract name params := by
  cases h with
  | unknown unknown =>
    exact contract_of_noVector (by decide) (iff_of_true rfl unknown) fun m named =>
      absurd named (unknown m)
  | solved x named => exact contract_of_solved named
  | @singular m _ named other =>
    have fits : .singularMatrix ∈ (Method.direct m).endings := by
      cases m with
      | gauss | lu => exact .tail _ (.head _)
      | cholesky => exact absurd rfl other
    exact contract_of_fits named (by decide) nofun fits
  | indefinite named => exact contract_of_fits named (by decide) nofun (by decide)
  | refused named => exact contract_of_fits named (by decide) nofun (.tail _ (.head _))
  | ran named given pos within spent => exact contract_of_ran named given pos within spent

/-- **The contract of linear systems.** Every request has a report, whatever its numbers are and
whatever it names, and the report keeps the contract. -/
theorem request_contract (s : LinearSystem Float n) (name : Option String)
    (params : Option (StationaryParams Float)) (withSteps : Bool) :
    Raising.request s name params withSteps = .ok (s.request name params withSteps) ∧
      (s.request name params withSteps).Contract name params :=
  ⟨Raising.request_eq name params withSteps, (arises_request s name params withSteps).contract⟩

/-- The system without unknowns. -/
def noUnknowns : LinearSystem Float 0 := ⟨.of fun i => i.elim0, .ofFn fun i => i.elim0⟩

/-- An empty vector does not say that no sweep was taken. A matrix without rows and columns makes a
system, the only vector there is solves it, and a stationary method takes one sweep to find that
out. -/
theorem iterations_noUnknowns :
    LinearSystem.ofArrays ⟨[0, 0], []⟩ ⟨[0], []⟩ = .ok ⟨0, noUnknowns⟩ ∧
      (let report := noUnknowns.request (some "jacobi") (some ⟨1e-6, 5, .ok .residual⟩) false
      report.status = .success ∧ report.iterations = 1 ∧
        ¬ (report.solution = [] → report.iterations = 0)) := by
  constructor
  · rfl
  · decide +kernel

end EquationSolver.Linear
