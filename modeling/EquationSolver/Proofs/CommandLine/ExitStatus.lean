import EquationSolver.CommandLine.Run
import EquationSolver.Proofs.Formula.Safety
import EquationSolver.Proofs.Root.Process
import Mathlib.Data.List.Forall2

/-!
# Exit codes

A run of the program is meant to say by its exit code how it went: zero for a success, one for any
other status of a solver, and two, with a message, for a formula, a point or a file that cannot be
used. The commands handle the faults of compiling a formula and of building a system. They do not
handle the fault of evaluating a formula at a point, nor those of reading a file and its cells, and
not the options that are given nothing by two dashes attached to them. Such a run ends in the fault
and has no exit code.

Whether it does is said here of the arguments and the file alone. The options are read in the order
in which a request is checked, so one that is given nothing does no harm behind an argument that is
refused.

## Main definitions

* `Command.Reports`, `Command.Prints`, `Command.Unusable`: what the three exit codes stand for
* `Ending.Keeps`: an ending that the exit codes promise
* `Command.Escapes`: the arguments and files with a fault that no command handles

## Main results

* `runRoot_error_iff`, `runLinear_error_iff`, `runEval_error_iff`: where a command ends in a fault
* `keeps_of_run_eq_ok`: what a command writes without a fault is what the exit codes promise
* `keeps_iff_not_escapes`: a run ends as promised unless a fault escapes
-/

namespace EquationSolver.CommandLine

variable {files : String → Option String} {name : String} {data : Json}

/-! ## What the exit codes stand for -/

namespace Command

/-- The solver that a command calls reports a status. -/
inductive Reports (files : String → Option String) : Command → Status → Prop where
  /-- The status of the request that the arguments of `root` make. -/
  | root {s : RootArguments} {method : Root.Method} (named : s.method = .value method) :
    Reports files (.root s) ((Root.solve (s.request method)).report s.steps).status
  /-- The status of the system that the file of `linear` holds. -/
  | linear {s : LinearArguments} {method : Linear.Method} {data : Json} {n : Nat}
    {system : Linear.LinearSystem Float n} (named : s.method = .value method)
    (object : readObject files s.system = .ok data) (stored : systemOf data = .ok ⟨n, system⟩) :
    Reports files (.linear s) ((system.solve method s.params).report s.steps).status

/-- The program of the formula and a line for its value at every point. -/
inductive Prints : Command → String → Prop where
  | eval {s : EvalArguments} {f : Formula} {lines : List String}
    (compiled : Formula.compile s.expression = .ok f)
    (all : List.Forall₂ (fun x line => ∃ y, f.eval x = .ok y ∧ line = valueLine x y) s.points
      lines) :
    Prints (.eval s) ("rpn: " ++ f.rpn ++ "\n" ++ String.join lines)

/-- A formula, a point or a file that cannot be used. -/
inductive Unusable (files : String → Option String) : Command → Prop where
  /-- The formula does not compile. -/
  | formula {s : EvalArguments} {cause : CompileError}
    (h : Formula.compile s.expression = .error cause) : Unusable files (.eval s)
  /-- The formula has no value at a point. -/
  | point {s : EvalArguments} {f : Formula} {x : Float} {cause : EvalError}
    (compiled : Formula.compile s.expression = .ok f) (mem : x ∈ s.points)
    (h : f.eval x = .error cause) : Unusable files (.eval s)
  /-- The file holds no system. -/
  | file {s : LinearArguments}
    (h : ¬ ∃ data system, readObject files s.system = .ok data ∧ systemOf data = .ok system) :
    Unusable files (.linear s)

end Command

/-- The ending is one that the exit codes promise for a command. -/
def Ending.Keeps (files : String → Option String) (command : Command) : Ending → Prop
  | .exit 0 output _ => command.Reports files .success ∨ command.Prints output
  | .exit 1 _ _ => ∃ status, status ≠ .success ∧ command.Reports files status
  | .exit 2 _ errors => command.Unusable files ∧
    ∃ log message, message ≠ "" ∧ errors = log ++ (message ++ "\n")
  | .exit _ _ _ => False
  | .failed _ => False

/-! ## The faults that no command handles -/

/-- A cell of the two arrays is an object or a whole number beyond the range of doubles, and it is
the first thing that is wrong with them. -/
def HasBadCell (data : Json) : Prop :=
  ∃ A b fault, data.member? "A" = some A ∧ data.member? "b" = some b ∧
    (fault = .badCell ∨ fault = .tooLarge) ∧
    (Linear.NestedArray.ofJson A = .error fault ∨
      ∃ array, Linear.NestedArray.ofJson A = .ok array ∧ Linear.NestedArray.ofJson b = .error fault)

/-- A run on a system comes to an option that was given nothing. The stopping rule is read if a
tolerance or a budget is given, and these are read by the stationary methods, the budget only after
a tolerance that is above zero. -/
def LinearArguments.ReadsNothing (s : LinearArguments) : Prop :=
  (s.tol ≠ none ∨ s.maxIter ≠ none) ∧ s.stop = .nothing ∨ s.method = .nothing ∨
    ∃ m, s.method = .value (.stationary m) ∧
      (s.tol = some .nothing ∨
        (∀ tol, s.tol = some (.value tol) → 0 < tol) ∧ s.maxIter = some .nothing)

namespace RootArguments

/-- All of some options were used, and one of them was given nothing. -/
def NothingAmong (numbers : List (Option (Given Float))) : Prop :=
  none ∉ numbers ∧ some .nothing ∈ numbers

/-- A method comes to an option of its own that was given nothing. A second formula is read before
the guess, and the guess only if the formula compiles. -/
def MethodReadsNothing (s : RootArguments) : Root.Method → Prop
  | .bisection | .regulaFalsi => NothingAmong [s.a, s.b]
  | .secant => NothingAmong [s.x0 <|> s.a, s.x1 <|> s.b]
  | .newton => s.derivative = some .nothing ∨
    (∀ text, s.derivative = some (.value text) →
      Text.isBlankText text = true ∨ ∃ d, Formula.compile text = .ok d) ∧ s.x0 = some .nothing
  | .fixedPoint => s.phi = some .nothing ∨
    ∃ text phi, s.phi = some (.value text) ∧ Formula.compile text = .ok phi ∧
      s.x0 = some .nothing

/-- A run of a root finder comes to an option that was given nothing. -/
def ReadsNothing (s : RootArguments) : Prop :=
  s.method = .nothing ∨
    ∃ method, s.method = .value method ∧ Text.isBlankText s.expression = false ∧
      (s.tol = .nothing ∨
        ∃ tol, s.tol = .value tol ∧ 0 < tol ∧
          (s.maxIter = .nothing ∨
            ∃ budget, s.maxIter = .value budget ∧ 0 < budget ∧
              (∃ f, Formula.compile s.expression = .ok f) ∧ s.MethodReadsNothing method))

end RootArguments

/-- The arguments and the file of a command have a fault that the command does not handle. -/
inductive Command.Escapes (files : String → Option String) : Command → Prop where
  /-- There is no such file. -/
  | absent {s : LinearArguments} (h : files s.system = none) : Escapes files (.linear s)
  /-- The file does not hold an object. -/
  | notObject {s : LinearArguments} {text : String} (given : files s.system = some text)
    (h : ∀ members, Json.read text ≠ .ok (.object members)) : Escapes files (.linear s)
  /-- A cell of the system cannot be read. -/
  | badCell {s : LinearArguments} {text : String} {members : List (String × Json)}
    (given : files s.system = some text) (read : Json.read text = .ok (.object members))
    (h : HasBadCell (.object members)) : Escapes files (.linear s)
  /-- An option of a run on a system was given nothing. -/
  | linearOption {s : LinearArguments} {data : Json} {n : Nat}
    {system : Linear.LinearSystem Float n} (object : readObject files s.system = .ok data)
    (stored : systemOf data = .ok ⟨n, system⟩) (h : s.ReadsNothing) : Escapes files (.linear s)
  /-- The formula has no value at a point. -/
  | point {s : EvalArguments} {f : Formula} {x : Float}
    (compiled : Formula.compile s.expression = .ok f) (mem : x ∈ s.points)
    (h : f.eval x = .error .divisionByZero) : Escapes files (.eval s)
  /-- An option of a root finder was given nothing. -/
  | rootOption {s : RootArguments} (h : s.ReadsNothing) : Escapes files (.root s)

/-! ## Evaluation -/

/-- A row of results is a row of values, or it is the first error in it. -/
theorem mapM_cases {α β ε : Type} (g : α → Except ε β) (xs : List α) :
    (∃ ys, xs.mapM g = .ok ys ∧ List.Forall₂ (fun x y => g x = .ok y) xs ys) ∨
      ∃ x ∈ xs, ∃ e, g x = .error e ∧ xs.mapM g = .error e := by
  induction xs with
  | nil => exact .inl ⟨[], rfl, .nil⟩
  | cons x xs ih =>
    rw [List.mapM_cons]
    rcases value : g x with e | y
    · exact .inr ⟨x, List.mem_cons_self, e, value, rfl⟩
    rcases ih with ⟨ys, all, values⟩ | ⟨z, mem, e, h, failed⟩
    · exact .inl ⟨y :: ys, by rw [all]; rfl, .cons value values⟩
    · exact .inr ⟨z, List.mem_cons_of_mem x mem, e, h, by rw [failed]; rfl⟩

/-- The line about the value at a point, if there is one. -/
def pointLine (f : Formula) (x : Float) : Except Fault String :=
  match f.eval x with
  | .ok value => .ok (valueLine x value)
  | .error cause => .error (.evaluation cause)

theorem pointLine_eq_ok_iff {f : Formula} {x : Float} {line : String} :
    pointLine f x = .ok line ↔ ∃ y, f.eval x = .ok y ∧ line = valueLine x y := by
  rw [pointLine]
  cases f.eval x with
  | error cause => simp
  | ok y => simp [eq_comm]

theorem pointLine_eq_error_iff {f : Formula} {x : Float} {fault : Fault} :
    pointLine f x = .error fault ↔
      ∃ cause, f.eval x = .error cause ∧ fault = .evaluation cause := by
  rw [pointLine]
  cases f.eval x with
  | error cause => simp [eq_comm]
  | ok y => simp

/-- What `eval` comes to. -/
inductive EvalCases (s : EvalArguments) : Except Fault Written → Prop where
  /-- The formula does not compile. -/
  | formula {cause : CompileError} (h : Formula.compile s.expression = .error cause) :
    EvalCases s (.ok { code := 2, complaint := "error: " ++ cause.message })
  /-- There is a value at every point. -/
  | values {output : String} {log : List LogLine} (h : Command.Prints (.eval s) output) :
    EvalCases s (.ok { code := 0, output, log })
  /-- There is none at one of them. -/
  | point {f : Formula} {x : Float} {cause : EvalError}
    (compiled : Formula.compile s.expression = .ok f) (mem : x ∈ s.points)
    (h : f.eval x = .error cause) : EvalCases s (.error (.evaluation cause))

theorem runEval_cases (s : EvalArguments) : EvalCases s (runEval s) := by
  rw [runEval]
  cases compiled : Formula.compile s.expression with
  | error cause => exact .formula compiled
  | ok f =>
    change EvalCases s (s.points.mapM (pointLine f) >>= fun lines =>
      Except.ok { code := 0, output := "rpn: " ++ f.rpn ++ "\n" ++ String.join lines,
                  log := [f.logLine] })
    rcases mapM_cases (pointLine f) s.points with ⟨lines, all, values⟩ | ⟨x, mem, fault, h, failed⟩
    · rw [all]
      exact .values (.eval compiled (values.imp fun _ _ => pointLine_eq_ok_iff.mp))
    · rw [failed]
      obtain ⟨cause, value, rfl⟩ := pointLine_eq_error_iff.mp h
      exact .point compiled mem value

/-! ## Systems in files -/

theorem readObject_eq_ok_iff :
    readObject files name = .ok data ↔
      ∃ text members, files name = some text ∧ Json.read text = .ok (.object members) ∧
        data = .object members := by
  rw [readObject]
  cases given : files name with
  | none => simp
  | some text =>
    dsimp only
    rcases read : Json.read text with fault | j
    · cases fault <;> simp [read]
    · cases j <;> simp [read, eq_comm]

/-- A file that holds no object is a fault. -/
theorem readObject_eq_error {fault : Fault} (h : readObject files name = .error fault) :
    files name = none ∨
      ∃ text, files name = some text ∧ ∀ members, Json.read text ≠ .ok (.object members) := by
  cases given : files name with
  | none => exact .inl rfl
  | some text =>
    refine .inr ⟨text, rfl, fun members read => ?_⟩
    have ok := readObject_eq_ok_iff.mpr ⟨text, members, given, read, rfl⟩
    cases h.symm.trans ok

/-- What the system of a file comes to. -/
inductive SystemCases (data : Json) : Except SystemFault ((n : Nat) × Linear.LinearSystem Float n) →
    Prop where
  /-- A member is missing. -/
  | missing {name : String} (h : data.member? "A" = none ∨ data.member? "b" = none) :
    SystemCases data (.error (.memberMissing name))
  /-- The matrix makes no array. -/
  | matrix {A b : Json} {fault : Linear.ArrayFault} (hA : data.member? "A" = some A)
    (hb : data.member? "b" = some b) (h : Linear.NestedArray.ofJson A = .error fault) :
    SystemCases data (.error (.array fault))
  /-- The right-hand side makes no array. -/
  | rhs {A b : Json} {array : Linear.NestedArray} {fault : Linear.ArrayFault}
    (hA : data.member? "A" = some A) (hb : data.member? "b" = some b)
    (matrix : Linear.NestedArray.ofJson A = .ok array)
    (h : Linear.NestedArray.ofJson b = .error fault) : SystemCases data (.error (.array fault))
  /-- Both make arrays. -/
  | arrays {A b : Json} {matrix rhs : Linear.NestedArray} (hA : data.member? "A" = some A)
    (hb : data.member? "b" = some b) (hm : Linear.NestedArray.ofJson A = .ok matrix)
    (hr : Linear.NestedArray.ofJson b = .ok rhs) :
    SystemCases data ((Linear.LinearSystem.ofArrays matrix rhs).mapError .shape)

theorem systemOf_cases (data : Json) : SystemCases data (systemOf data) := by
  unfold systemOf
  dsimp only
  cases hA : data.member? "A" with
  | none => exact .missing (.inl hA)
  | some A =>
    cases hb : data.member? "b" with
    | none => exact .missing (.inr hb)
    | some b =>
      change SystemCases data ((Linear.NestedArray.ofJson A).mapError .array >>= fun A =>
        (Linear.NestedArray.ofJson b).mapError .array >>= fun b =>
          (Linear.LinearSystem.ofArrays A b).mapError .shape)
      cases hm : Linear.NestedArray.ofJson A with
      | error fault => exact .matrix hA hb hm
      | ok matrix =>
        cases hr : Linear.NestedArray.ofJson b with
        | error fault => exact .rhs hA hb hm hr
        | ok rhs => exact .arrays hA hb hm hr

theorem complaint_array_eq_error_iff {fault : Linear.ArrayFault} :
    (∃ cause, (SystemFault.array fault).complaint = .error cause) ↔
      fault = .badCell ∨ fault = .tooLarge := by
  cases fault <;> simp [SystemFault.complaint]

/-- The complaint about a system fails exactly for a cell that cannot be read. -/
theorem complaint_eq_error_iff_hasBadCell :
    (∃ fault cause, systemOf data = .error fault ∧ fault.complaint = .error cause) ↔
      HasBadCell data := by
  have outcome := systemOf_cases data
  generalize systemOf data = r at outcome
  cases outcome with
  | missing h =>
    refine iff_of_false ?_ ?_
    · rintro ⟨fault, cause, ⟨⟩, failed⟩
      cases failed
    · rintro ⟨A, b, -, hA, hb, -⟩
      rcases h with h | h
      · cases h.symm.trans hA
      · cases h.symm.trans hb
  | @matrix A b fault hA hb h =>
    constructor
    · rintro ⟨_, cause, ⟨⟩, failed⟩
      exact ⟨A, b, fault, hA, hb, complaint_array_eq_error_iff.mp ⟨cause, failed⟩, .inl h⟩
    · rintro ⟨A', b', fault', hA', -, kind, first⟩
      obtain rfl := Option.some.inj (hA.symm.trans hA')
      rcases first with h' | ⟨array, matrix, -⟩
      · obtain rfl := Except.error.inj (h.symm.trans h')
        obtain ⟨cause, failed⟩ := complaint_array_eq_error_iff.mpr kind
        exact ⟨_, cause, rfl, failed⟩
      · cases h.symm.trans matrix
  | @rhs A b array fault hA hb matrix h =>
    constructor
    · rintro ⟨_, cause, ⟨⟩, failed⟩
      exact ⟨A, b, fault, hA, hb, complaint_array_eq_error_iff.mp ⟨cause, failed⟩,
        .inr ⟨array, matrix, h⟩⟩
    · rintro ⟨A', b', fault', hA', hb', kind, first⟩
      obtain rfl := Option.some.inj (hA.symm.trans hA')
      obtain rfl := Option.some.inj (hb.symm.trans hb')
      rcases first with h' | ⟨-, -, h'⟩
      · cases matrix.symm.trans h'
      · obtain rfl := Except.error.inj (h.symm.trans h')
        obtain ⟨cause, failed⟩ := complaint_array_eq_error_iff.mpr kind
        exact ⟨_, cause, rfl, failed⟩
  | @arrays A b matrix rhs hA hb hm hr =>
    refine iff_of_false ?_ ?_
    · rintro ⟨fault, cause, shape, failed⟩
      cases h : Linear.LinearSystem.ofArrays matrix rhs with
      | error fault' =>
        rw [h] at shape
        cases shape
        cases failed
      | ok system =>
        rw [h] at shape
        cases shape
    · rintro ⟨A', b', fault', hA', hb', -, first⟩
      obtain rfl := Option.some.inj (hA.symm.trans hA')
      obtain rfl := Option.some.inj (hb.symm.trans hb')
      rcases first with h | ⟨-, -, h⟩
      · cases hm.symm.trans h
      · cases hr.symm.trans h

/-! ## Options that are given nothing -/

theorem isGivenNothing_iff {α : Type} {x : Option (Given α)} :
    isGivenNothing x = true ↔ x = some .nothing := by
  rcases x with _ | _ | _ <;> simp [isGivenNothing, Given.isNothing]

theorem isNothing_iff {α : Type} {x : Given α} : x.isNothing = true ↔ x = .nothing := by
  cases x <;> simp [Given.isNothing]

theorem numberFault?_stationary_iff {s : LinearArguments} {m : Linear.StationaryMethod} :
    (∃ fault, s.numberFault? (.stationary m) = some fault) ↔
      s.tol = some .nothing ∨
        (∀ tol, s.tol = some (.value tol) → 0 < tol) ∧ s.maxIter = some .nothing := by
  simp only [LinearArguments.numberFault?, isGivenNothing_iff]
  rcases s.tol with _ | tol | _
  · have standard : (0 : Float) < 1e-10 := by decide +kernel
    simp [standard]
  · by_cases positive : 0 < tol <;> simp [positive, Given.toOption]
  · simp

/-- A run on a system comes to its method unless it comes to an option that was given nothing. -/
theorem readMethod_eq_error_iff {s : LinearArguments} :
    (∃ fault, s.readMethod = .error fault) ↔ s.ReadsNothing := by
  have given : s.params.isSome = true ↔ s.tol ≠ none ∨ s.maxIter ≠ none := by
    rw [LinearArguments.params]
    cases s.tol <;> cases s.maxIter <;> simp
  rw [LinearArguments.readMethod, LinearArguments.ReadsNothing, ← given, ← isNothing_iff]
  by_cases rule : s.params.isSome = true ∧ s.stop.isNothing = true
  · simp [rule]
  rw [if_neg (by simpa using rule), or_iff_right rule]
  rcases s.method with (method | m) | _
  · simp [LinearArguments.numberFault?]
  · have own : (∃ m', Given.value (Linear.Method.stationary m) = .value (.stationary m') ∧
        (s.tol = some .nothing ∨
          (∀ tol, s.tol = some (.value tol) → 0 < tol) ∧ s.maxIter = some .nothing)) ↔
        ∃ fault, s.numberFault? (.stationary m) = some fault := by
      rw [numberFault?_stationary_iff]
      simp
    rw [own]
    cases fault : s.numberFault? (.stationary m) <;> simp [fault]
  · simp

theorem method_of_readMethod {s : LinearArguments} {method : Linear.Method}
    (h : s.readMethod = .ok method) : s.method = .value method := by
  rw [LinearArguments.readMethod] at h
  split at h
  · cases h
  · cases named : s.method with
    | nothing =>
      rw [named] at h
      cases h
    | value m =>
      rw [named] at h
      dsimp only at h
      split at h
      · cases h
      · rw [Except.ok.inj h]

namespace RootArguments

variable {s : RootArguments}

theorem numberFault?_eq_some_iff {numbers : List (Option (Given Float))} :
    (∃ fault, numberFault? numbers = some fault) ↔ NothingAmong numbers := by
  have all : (numbers.all Option.isSome) = true ↔ none ∉ numbers := by
    rw [List.all_eq_true]
    constructor
    · intro used missing
      cases used none missing
    · intro used x mem
      cases x with
      | none => exact absurd mem used
      | some _ => rfl
  have any : (numbers.any isGivenNothing) = true ↔ some .nothing ∈ numbers := by
    simp [List.any_eq_true, isGivenNothing_iff]
  rw [numberFault?, NothingAmong, ← all, ← any, ← Bool.and_eq_true]
  split <;> simp [*]

theorem isOk_iff {ε α : Type} {r : Except ε α} : r.isOk = true ↔ ∃ x, r = .ok x := by
  cases r <;> simp [Except.isOk, Except.toBool]

/-- A method comes to an option of its own that was given nothing. -/
theorem methodFault?_eq_some_iff {method : Root.Method} :
    (∃ fault, s.methodFault? method = some fault) ↔ s.MethodReadsNothing method := by
  have guess : NothingAmong [s.x0] ↔ s.x0 = some .nothing := by
    rw [NothingAmong]
    rcases s.x0 with _ | _ | _ <;> simp
  cases method with
  | bisection | regulaFalsi | secant => exact numberFault?_eq_some_iff
  | newton =>
    rw [methodFault?, MethodReadsNothing]
    rcases s.derivative with _ | text | _
    · simp [numberFault?_eq_some_iff, guess]
    · by_cases usable : Text.isBlankText text = true ∨ ∃ d, Formula.compile text = .ok d
      · have read := usable
        rw [← isOk_iff, ← Bool.or_eq_true] at read
        simp [read, usable, numberFault?_eq_some_iff, guess]
      · have unread := usable
        rw [← isOk_iff, ← Bool.or_eq_true] at unread
        simp [unread, usable]
    · simp
  | fixedPoint =>
    rw [methodFault?, MethodReadsNothing]
    rcases s.phi with _ | text | _
    · simp
    · rcases compiled : Formula.compile text with cause | phi
      · simp [Except.isOk, Except.toBool, compiled]
      · simp [Except.isOk, Except.toBool, compiled, numberFault?_eq_some_iff, guess]
    · simp

/-- A root finder comes to an option that was given nothing. -/
theorem fault?_eq_some_iff {method : Root.Method} :
    (∃ fault, s.fault? method = some fault) ↔
      Text.isBlankText s.expression = false ∧
        (s.tol = .nothing ∨
          ∃ tol, s.tol = .value tol ∧ 0 < tol ∧
            (s.maxIter = .nothing ∨
              ∃ budget, s.maxIter = .value budget ∧ 0 < budget ∧
                (∃ f, Formula.compile s.expression = .ok f) ∧ s.MethodReadsNothing method)) := by
  have compiled : (Formula.ofText? (s.request method).function).isOk = true ↔
      ∃ f, Formula.compile s.expression = .ok f := isOk_iff
  have blank : Root.isMissing (s.request method).function = Text.isBlankText s.expression := rfl
  rw [← compiled, ← methodFault?_eq_some_iff, ← blank]
  dsimp only [fault?]
  by_cases missing : Root.isMissing (s.request method).function = true
  · simp [missing]
  rw [if_neg missing, and_iff_right (eq_false_of_ne_true missing)]
  cases tolerance : s.tol with
  | nothing => simp [Given.isNothing]
  | value tol =>
    have asked : (s.request method).tolerance = tol := by rw [request, tolerance]; rfl
    simp only [Given.isNothing, Bool.false_eq_true, if_false, asked, reduceCtorEq, false_or,
      Given.value.injEq, exists_eq_left']
    by_cases positive : 0 < tol
    · rw [if_neg (not_not_intro positive), and_iff_right positive]
      cases steps : s.maxIter with
      | nothing => simp
      | value budget =>
        have asked : (s.request method).maxIterations = budget := by rw [request, steps]; rfl
        by_cases enough : 0 < budget
        · by_cases usable : (Formula.ofText? (s.request method).function).isOk = true
          · simp [asked, Int.not_le.mpr enough, enough, usable]
          · simp [usable]
        · simp [asked, enough, Int.not_lt.mp enough]
    · rw [if_pos positive]
      simp [positive]

end RootArguments

/-! ## The commands -/

theorem runRoot_error_iff {s : RootArguments} :
    (∃ fault, runRoot s = .error fault) ↔ s.ReadsNothing := by
  rw [runRoot, RootArguments.ReadsNothing]
  rcases s.method with method | _
  · simp only [reduceCtorEq, false_or, Given.value.injEq, exists_eq_left',
      ← RootArguments.fault?_eq_some_iff]
    cases s.fault? method <;> simp
  · simp

theorem of_runRoot_eq_ok {s : RootArguments} {written : Written} (h : runRoot s = .ok written) :
    ∃ status, (Command.root s).Reports files status ∧ written.code = exitCode status := by
  rw [runRoot] at h
  cases named : s.method with
  | nothing =>
    rw [named] at h
    cases h
  | value method =>
    rw [named] at h
    dsimp only at h
    split at h
    · cases h
    · cases h
      exact ⟨_, .root named, rfl⟩

/-- What `linear` comes to. -/
inductive LinearCases (files : String → Option String) (s : LinearArguments) :
    Except Fault Written → Prop where
  /-- The file holds no object. -/
  | noObject {fault : Fault} (h : readObject files s.system = .error fault) :
    LinearCases files s (.error fault)
  /-- The object holds no system, and that is handled. -/
  | noSystem {data : Json} {fault : SystemFault} {complaint : String}
    (object : readObject files s.system = .ok data) (stored : systemOf data = .error fault)
    (h : fault.complaint = .ok complaint) :
    LinearCases files s
      (.ok { code := 2, complaint := "invalid system file " ++ s.system ++ ": " ++ complaint })
  /-- The object holds no system, and that is not handled. -/
  | badCell {data : Json} {fault : SystemFault} {cause : Fault}
    (object : readObject files s.system = .ok data) (stored : systemOf data = .error fault)
    (h : fault.complaint = .error cause) : LinearCases files s (.error cause)
  /-- An option was given nothing. -/
  | option {data : Json} {n : Nat} {system : Linear.LinearSystem Float n} {cause : Fault}
    (object : readObject files s.system = .ok data) (stored : systemOf data = .ok ⟨n, system⟩)
    (h : s.readMethod = .error cause) : LinearCases files s (.error cause)
  /-- The system is solved. -/
  | solved {data : Json} {n : Nat} {system : Linear.LinearSystem Float n} {method : Linear.Method}
    {written : Written} (object : readObject files s.system = .ok data)
    (stored : systemOf data = .ok ⟨n, system⟩) (h : s.readMethod = .ok method)
    (code : written.code = exitCode ((system.solve method s.params).report s.steps).status) :
    LinearCases files s (.ok written)

theorem runLinear_cases (files : String → Option String) (s : LinearArguments) :
    LinearCases files s (runLinear files s) := by
  rw [runLinear]
  cases object : readObject files s.system with
  | error fault => exact .noObject object
  | ok data =>
    dsimp only [bind, Except.bind]
    rcases stored : systemOf data with fault | ⟨n, system⟩
    · dsimp only
      cases h : fault.complaint with
      | error cause => exact .badCell object stored h
      | ok complaint => exact .noSystem object stored h
    · cases h : s.readMethod with
      | error cause => exact .option object stored h
      | ok method => exact .solved object stored h rfl

theorem exists_value {f : Formula} {points : List Float} {lines : List String}
    (all : List.Forall₂ (fun x line => ∃ y, f.eval x = .ok y ∧ line = valueLine x y) points lines)
    {x : Float} (mem : x ∈ points) : ∃ y, f.eval x = .ok y := by
  have each := all.imp (S := fun x _ => (∃ y, f.eval x = .ok y) ∧ True)
    fun x line ⟨y, value, _⟩ => ⟨⟨y, value⟩, trivial⟩
  exact ((List.forall₂_and_left _ _).mp each).1 x mem

theorem runEval_error_iff {s : EvalArguments} :
    (∃ fault, runEval s = .error fault) ↔ (Command.eval s).Escapes files := by
  have outcome := runEval_cases s
  generalize runEval s = r at outcome
  cases outcome with
  | formula h =>
    refine iff_of_false nofun fun escapes => ?_
    cases escapes with
    | point compiled => cases h.symm.trans compiled
  | values h =>
    refine iff_of_false nofun fun escapes => ?_
    obtain ⟨compiled, all⟩ := h
    cases escapes with
    | point compiled' mem divides =>
      obtain rfl := Except.ok.inj (compiled.symm.trans compiled')
      obtain ⟨y, value⟩ := exists_value all mem
      cases value.symm.trans divides
  | @point f x cause compiled mem h =>
    refine iff_of_true ⟨_, rfl⟩ (.point compiled mem ?_)
    have given : Formula.ofText? (some s.expression) = .ok f := compiled
    rcases Formula.eval_of_ofText? given x with ⟨y, value⟩ | divides
    · cases h.symm.trans value
    · exact divides

theorem escapes_linear_iff {s : LinearArguments} :
    (Command.linear s).Escapes files ↔
      (∃ fault, readObject files s.system = .error fault) ∨
        ∃ data, readObject files s.system = .ok data ∧
          (HasBadCell data ∨ (∃ n system, systemOf data = .ok ⟨n, system⟩) ∧ s.ReadsNothing) := by
  constructor
  · rintro (h | ⟨given, h⟩ | ⟨given, read, h⟩ | ⟨object, stored, h⟩)
    · exact .inl ⟨_, by rw [readObject, h]⟩
    · refine .inl ?_
      cases object : readObject files s.system with
      | error fault => exact ⟨fault, rfl⟩
      | ok data =>
        obtain ⟨text, members, given', read, -⟩ := readObject_eq_ok_iff.mp object
        obtain rfl := Option.some.inj (given.symm.trans given')
        exact absurd read (h members)
    · exact .inr ⟨_, readObject_eq_ok_iff.mpr ⟨_, _, given, read, rfl⟩, .inl h⟩
    · exact .inr ⟨_, object, .inr ⟨⟨_, _, stored⟩, h⟩⟩
  · rintro (⟨fault, h⟩ | ⟨data, object, h | ⟨⟨n, system, stored⟩, h⟩⟩)
    · rcases readObject_eq_error h with absent | ⟨text, given, other⟩
      · exact .absent absent
      · exact .notObject given other
    · obtain ⟨text, members, given, read, rfl⟩ := readObject_eq_ok_iff.mp object
      exact .badCell given read h
    · exact .linearOption object stored h

theorem runLinear_error_iff {s : LinearArguments} :
    (∃ fault, runLinear files s = .error fault) ↔ (Command.linear s).Escapes files := by
  rw [escapes_linear_iff]
  have outcome := runLinear_cases files s
  generalize runLinear files s = r at outcome
  cases outcome with
  | noObject h => exact iff_of_true ⟨_, rfl⟩ (.inl ⟨_, h⟩)
  | badCell object stored h =>
    exact iff_of_true ⟨_, rfl⟩
      (.inr ⟨_, object, .inl (complaint_eq_error_iff_hasBadCell.mp ⟨_, _, stored, h⟩)⟩)
  | option object stored h =>
    exact iff_of_true ⟨_, rfl⟩
      (.inr ⟨_, object, .inr ⟨⟨_, _, stored⟩, readMethod_eq_error_iff.mp ⟨_, h⟩⟩⟩)
  | @noSystem data fault complaint object stored h =>
    refine iff_of_false nofun ?_
    rintro (⟨fault', h'⟩ | ⟨data', object', bad | ⟨⟨n, system, stored'⟩, -⟩⟩)
    · cases object.symm.trans h'
    · obtain rfl := Except.ok.inj (object.symm.trans object')
      obtain ⟨fault', cause, stored', h'⟩ := complaint_eq_error_iff_hasBadCell.mpr bad
      obtain rfl := Except.error.inj (stored.symm.trans stored')
      cases h.symm.trans h'
    · obtain rfl := Except.ok.inj (object.symm.trans object')
      cases stored.symm.trans stored'
  | solved object stored h =>
    refine iff_of_false nofun ?_
    rintro (⟨fault', h'⟩ | ⟨data', object', bad | ⟨-, reads⟩⟩)
    · cases object.symm.trans h'
    · obtain rfl := Except.ok.inj (object.symm.trans object')
      obtain ⟨fault', cause, stored', -⟩ := complaint_eq_error_iff_hasBadCell.mpr bad
      cases stored.symm.trans stored'
    · obtain ⟨fault, h'⟩ := readMethod_eq_error_iff.mpr reads
      cases h.symm.trans h'

/-- A command ends in a fault exactly if one escapes. -/
theorem run_error_iff_escapes {command : Command} :
    (∃ fault, command.run files = .error fault) ↔ command.Escapes files := by
  cases command with
  | root s =>
    refine runRoot_error_iff.trans ⟨.rootOption, fun escapes => ?_⟩
    cases escapes with
    | rootOption h => exact h
  | linear s => exact runLinear_error_iff
  | eval s => exact runEval_error_iff

/-! ## Exit codes -/

theorem keeps_of_reports {command : Command} {status : Status} (h : command.Reports files status)
    (output errors : String) :
    (Ending.exit (exitCode status) output errors).Keeps files command := by
  rw [exitCode]
  split
  · rename_i success
    exact .inl (success ▸ h)
  · exact ⟨status, ‹_›, h⟩

/-- A complaint is the last line of the error output. -/
theorem errorText_complaint (verbosity : Nat) (log : List LogLine) (complaint : String) :
    ∃ before, errorText verbosity log (some complaint) = before ++ (complaint ++ "\n") := by
  refine ⟨String.join (((log.filter (LogLine.isShown verbosity)).map LogLine.render).map
    fun line => line ++ "\n"), ?_⟩
  rw [errorText, List.map_append]
  simp

/-- What a command writes without a fault is what the exit codes promise. -/
theorem keeps_of_run_eq_ok {command : Command} {written : Written}
    (h : command.run files = .ok written) (verbosity : Nat) (first : LogLine) :
    (Ending.exit written.code written.output
      (errorText verbosity (first :: written.log) written.complaint)).Keeps files command := by
  cases command with
  | root s =>
    obtain ⟨status, reports, code⟩ := of_runRoot_eq_ok h
    rw [code]
    exact keeps_of_reports reports _ _
  | linear s =>
    have outcome := runLinear_cases files s
    rw [show runLinear files s = .ok written from h] at outcome
    cases outcome with
    | noSystem object stored complaint =>
      obtain ⟨before, text⟩ := errorText_complaint verbosity [first] _
      refine ⟨.file ?_, before, _, by simp, text⟩
      rintro ⟨data, system, object', stored'⟩
      obtain rfl := Except.ok.inj (object.symm.trans object')
      cases stored.symm.trans stored'
    | solved object stored method code =>
      rw [code]
      exact keeps_of_reports (.linear (method_of_readMethod method) object stored) _ _
  | eval s =>
    have outcome := runEval_cases s
    rw [show runEval s = .ok written from h] at outcome
    cases outcome with
    | formula cause =>
      obtain ⟨before, text⟩ := errorText_complaint verbosity [first] _
      exact ⟨.formula cause, before, _, by simp, text⟩
    | values printed => exact .inr printed

/-- **A run keeps its exit code unless a fault escapes**: for arguments that are accepted, a run
ends with the code that is promised exactly if neither the arguments nor the file hold one of the
faults that no command handles. -/
theorem keeps_iff_not_escapes (files : String → Option String) {arguments : List String}
    {invocation : Invocation} (accepted : Invocation.parse arguments = .ok invocation) :
    (run files arguments).Keeps files invocation.command ↔
      ¬ invocation.command.Escapes files := by
  have ending : run files arguments = invocation.run files := by rw [run, accepted]
  rw [ending, Invocation.run, ← run_error_iff_escapes]
  cases h : invocation.command.run files with
  | error fault => exact iff_of_false nofun (not_not_intro ⟨fault, rfl⟩)
  | ok written => exact iff_of_true (keeps_of_run_eq_ok h _ _) nofun

deriving instance DecidableEq for ValueFault, ArgumentError, Refusal
deriving instance DecidableEq for RootArguments, LinearArguments, EvalArguments
deriving instance DecidableEq for Command
deriving instance DecidableEq for Invocation

/-- The reciprocal has a value at one, which is printed, and the exit code is zero. -/
theorem keeps_iff_not_escapes_reciprocal :
    (run (fun _ => none) ["eval", "1/x", "1"]).Keeps (fun _ => none)
      (.eval { expression := "1/x", points := [1] }) := by
  have accepted : Invocation.parse ["eval", "1/x", "1"] =
      .ok ⟨0, .eval { expression := "1/x", points := [1] }⟩ := by decide +kernel
  have value : Root.reciprocal.eval 1 = .ok 1 := by decide +kernel
  refine (keeps_iff_not_escapes (fun _ => none) accepted).mpr fun escapes => ?_
  cases escapes with
  | point compiled mem divides =>
    obtain rfl := Except.ok.inj (Root.compile_reciprocal.symm.trans compiled)
    obtain rfl := List.mem_singleton.mp mem
    cases value.symm.trans divides

/-- The reciprocal has no value at zero, and a file may be missing: such runs have no exit code. -/
theorem run_without_exit_code :
    Invocation.parse ["eval", "1/x", "0"] =
        .ok ⟨0, .eval { expression := "1/x", points := [0] }⟩ ∧
      run (fun _ => none) ["eval", "1/x", "0"] = .failed (.evaluation .divisionByZero) ∧
      Invocation.parse ["linear", "system.json"] =
        .ok ⟨0, .linear { system := "system.json" }⟩ ∧
      run (fun _ => none) ["linear", "system.json"] = .failed (.fileMissing "system.json") := by
  have accepted : Invocation.parse ["eval", "1/x", "0"] =
      .ok ⟨0, .eval { expression := "1/x", points := [0] }⟩ := by decide +kernel
  have accepted' : Invocation.parse ["linear", "system.json"] =
      .ok ⟨0, .linear { system := "system.json" }⟩ := by decide +kernel
  have pole : pointLine Root.reciprocal 0 = .error (.evaluation .divisionByZero) :=
    pointLine_eq_error_iff.mpr ⟨_, by decide +kernel, rfl⟩
  have failed : runEval { expression := "1/x", points := [0] } =
      .error (.evaluation .divisionByZero) := by
    rw [runEval, Root.compile_reciprocal]
    change ([0].mapM (pointLine Root.reciprocal) >>= _) = _
    rw [List.mapM_cons, pole]
    rfl
  refine ⟨accepted, ?_, accepted', ?_⟩
  · rw [run, accepted]
    dsimp only [Invocation.run, Command.run]
    rw [failed]
  · rw [run, accepted']
    rfl

end EquationSolver.CommandLine
