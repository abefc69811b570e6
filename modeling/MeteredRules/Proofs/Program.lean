import MeteredRules.Proofs.Evaluation.Lookup

/-!
# Compiled programs

A compiled program gives what evaluating its source text would give. Evaluation depends on the
environment through lookups only, so the bindings may be split between the defaults of a workspace
and a call in any way, and an environment that looks the same may have been built in any way. A run
leaves nothing behind but the clock: in a series of runs, of this program and of others, each run
gives what it would give alone from the clock that the runs before it left.
-/

namespace MeteredRules

/-! ## Environments that look the same -/

theorem Scope.lookup_congr {left right : Scope}
    (same : ∀ name, left.environment.get? name = right.environment.get? name) (use : Use) :
    left.lookup use = right.lookup use := by
  cases use with
  | operand name => exact resolve_congr fun _ => same name
  | head name => exact resolveHead_congr (same name)

theorem Outcome.ofNodes_eq_of_get? {left right : Environment}
    (same : ∀ name, left.get? name = right.get? name) (host : Host) (limit : Option UInt64)
    (nodes : List Node) (clock : Clock) :
    ofNodes ⟨host, left⟩ limit nodes clock = ofNodes ⟨host, right⟩ limit nodes clock := by
  apply ofNodes_congr
  · rfl
  · intro use _
    exact Scope.lookup_congr same use

/-! ## Compiling -/

namespace Workspace

variable {workspace : Workspace} {source : String}

theorem compile_eq_error_iff {error : Error} :
    workspace.compile source = .error error ↔
      Reader.read workspace.options source = .error error := by
  simp only [compile]
  cases Reader.read workspace.options source with
  | error raised => simp only [Error.error_bind, Except.error.injEq]
  | ok nodes => simp [pure, Except.pure]

theorem compile_eq_ok_iff {program : Program} :
    workspace.compile source = .ok program ↔
      ∃ nodes, Reader.read workspace.options source = .ok nodes ∧
        program = ⟨nodes, workspace.defaults, workspace.limit⟩ := by
  simp only [compile, Error.bind_eq_ok_iff]
  constructor
  · rintro ⟨nodes, accepted, same⟩
    exact ⟨nodes, accepted, (Except.ok.inj same).symm⟩
  · rintro ⟨nodes, accepted, rfl⟩
    exact ⟨nodes, accepted, rfl⟩

theorem run_of_error {error : Error} (refused : workspace.compile source = .error error)
    (host : Host) (bindings : Environment) (limit : Option UInt64) (clock : Clock) :
    workspace.run host source bindings limit clock = .ofError error clock := by
  simp only [run, refused]

theorem run_of_ok {program : Program} (compiled : workspace.compile source = .ok program)
    (host : Host) (bindings : Environment) (limit : Option UInt64) (clock : Clock) :
    workspace.run host source bindings limit clock =
      program.invoke host bindings limit clock := by
  simp only [run, compiled]

/-- A program compiled with the standard options runs as its source text is evaluated. -/
theorem invoke_eq_evaluate (standard : workspace.options = .standard) {program : Program}
    (compiled : workspace.compile source = .ok program) {bindings environment : Environment}
    (same : ∀ name, environment.get? name = (bindings.get? name).or (workspace.defaults.get? name))
    (host : Host) (limit : Option UInt64) (clock : Clock) :
    program.invoke host bindings limit clock =
      evaluate host source environment (limit.or workspace.limit) clock := by
  rcases compile_eq_ok_iff.mp compiled with ⟨nodes, accepted, rfl⟩
  rw [standard] at accepted
  simp only [Program.invoke, evaluate, accepted]
  apply Outcome.ofNodes_eq_of_get?
  intro name
  rw [Environment.get?_merged, same name]

end Workspace

/-! ## Series of runs -/

/-- A run of a program with given bindings and a given budget. -/
structure Invocation where
  program : Program
  bindings : Environment
  limit : Option UInt64

namespace Invocation

/-- The outcome of a run that starts at a given clock. -/
def outcome (host : Host) (clock : Clock) (invocation : Invocation) : Outcome :=
  invocation.program.invoke host invocation.bindings invocation.limit clock

/-- The outcomes of a series of runs, each of which starts at the clock that the last one left. -/
def outcomes (host : Host) (clock : Clock) : List Invocation → List Outcome
  | [] => []
  | invocation :: later =>
    invocation.outcome host clock :: outcomes host (invocation.outcome host clock).clock later

/-- The clock that a series of runs leaves. -/
def clockAfter (host : Host) (clock : Clock) : List Invocation → Clock
  | [] => clock
  | invocation :: later => clockAfter host (invocation.outcome host clock).clock later

/-- A run gives what it gives alone from the clock that the runs before it left. -/
theorem getElem?_outcomes (host : Host) (clock : Clock) (earlier later : List Invocation)
    (invocation : Invocation) :
    (outcomes host clock (earlier ++ invocation :: later))[earlier.length]? =
      some (invocation.outcome host (clockAfter host clock earlier)) := by
  induction earlier generalizing clock with
  | nil => rfl
  | cons first earlier ih =>
      simp only [List.cons_append, outcomes, List.length_cons, List.getElem?_cons_succ, clockAfter]
      exact ih (first.outcome host clock).clock

end Invocation

/--
Compiling with the standard options fails exactly if the text cannot be read, with the error that
evaluating the text gives. Otherwise every run of the program, in whatever series of runs it stands,
has the outcome of evaluating the text in any environment where a name means what the call binds it
to, or else what the defaults do; the budget is the one of the call, or else the default. Compiling
and running in one step is the same.
-/
theorem Workspace.outcomes_eq_evaluate (host : Host) (defaults : Environment)
    (budget : Option UInt64) (source : String) :
    let workspace : Workspace := { ofDefaults defaults with limit := budget }
    (∀ error, workspace.compile source = .error error ↔
      Reader.read .standard source = .error error) ∧
    (∀ error, workspace.compile source = .error error → ∀ environment limit clock,
      evaluate host source environment limit clock = .ofError error clock) ∧
    (∀ bindings limit clock,
      (∀ error, workspace.compile source = .error error →
        workspace.run host source bindings limit clock = .ofError error clock) ∧
      ∀ program, workspace.compile source = .ok program →
        workspace.run host source bindings limit clock =
          program.invoke host bindings limit clock) ∧
    ∀ program, workspace.compile source = .ok program →
      ∀ bindings environment : Environment,
        (∀ name, environment.get? name = (bindings.get? name).or (defaults.get? name)) →
          ∀ limit clock earlier later,
            (Invocation.outcomes host clock
                (earlier ++ ⟨program, bindings, limit⟩ :: later))[earlier.length]? =
              some (evaluate host source environment (limit.or budget)
                (Invocation.clockAfter host clock earlier)) := by
  intro workspace
  refine ⟨fun error => compile_eq_error_iff, ?_, ?_, ?_⟩
  · intro error refused environment limit clock
    have unread : Reader.read .standard source = .error error := compile_eq_error_iff.mp refused
    simp only [evaluate, unread]
  · intro bindings limit clock
    refine ⟨?_, ?_⟩
    · intro error refused
      exact run_of_error refused host bindings limit clock
    · intro program compiled
      exact run_of_ok compiled host bindings limit clock
  · intro program compiled bindings environment same limit clock earlier later
    rw [Invocation.getElem?_outcomes]
    exact congrArg some (invoke_eq_evaluate rfl compiled same host limit _)

/--
The text `(first xs)` is compiled with defaults for `xs` and `ys`. Run after a run that uses the
default, it sees the binding of its own call, as in an environment that was built without defaults.
-/
theorem Workspace.outcomes_eq_evaluate_first :
    let host : Host := fun _ _ => .ofResult (.ok .nil)
    let defaults := (Environment.empty.define "ys" .nil).define "xs" (.array [.int 1])
    let bindings := Environment.empty.define "xs" (.array [.int 2])
    let environment := bindings.define "ys" .nil
    let workspace : Workspace := { ofDefaults defaults with limit := some 1 }
    let program : Program := ⟨[.form [.symbol "first", .symbol "xs"]], defaults, some 1⟩
    let clock := Clock.still .epoch
    workspace.compile "(first xs)" = .ok program ∧
      (∀ name, environment.get? name = (bindings.get? name).or (defaults.get? name)) ∧
      (program.invoke host .empty none clock).result = .ok (.int 1) ∧
      (Invocation.outcomes host clock [⟨program, .empty, none⟩, ⟨program, bindings, none⟩])[1]? =
        some (evaluate host "(first xs)" environment (some 1) clock) ∧
      (evaluate host "(first xs)" environment (some 1) clock).result = .ok (.int 2) := by
  intro host defaults bindings environment workspace program clock
  have accepted : Reader.read .standard "(first xs)" =
      .ok [.form [.symbol "first", .symbol "xs"]] := Reader.read_eq_of_display rfl rfl
  have compiled : workspace.compile "(first xs)" = .ok program :=
    compile_eq_ok_iff.mpr ⟨_, accepted, rfl⟩
  have same : ∀ name,
      environment.get? name = (bindings.get? name).or (defaults.get? name) := by
    intro name
    simp only [environment, bindings, defaults, Environment.get?_define, Environment.get?_empty]
    by_cases isXs : "xs" = name
    · subst isXs
      rfl
    · simp [isXs]
  refine ⟨compiled, same, rfl, ?_, ?_⟩
  · exact (outcomes_eq_evaluate host defaults (some 1) "(first xs)").2.2.2 program compiled
      bindings environment same none clock [⟨program, .empty, none⟩] []
  · simp only [evaluate, accepted]
    rfl

end MeteredRules
