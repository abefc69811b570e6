import MeteredRules.Evaluation
import MeteredRules.Reader.Build

/-!
# Programs

A source text is read once and can then be run many times. A workspace holds what the programs
compiled in it share: default bindings, the options of reading and a default budget.
-/

namespace MeteredRules

/-- Reads and evaluates a source text. -/
def evaluate (host : Host) (source : String) (environment : Environment) (limit : Option UInt64)
    (clock : Clock) : Outcome :=
  match Reader.read .standard source with
  | .error error => .ofError error clock
  | .ok nodes => .ofNodes ⟨host, environment⟩ limit nodes clock

/-- What programs are compiled with. -/
structure Workspace where
  defaults : Environment
  options : Reader.Options
  limit : Option UInt64

/-- A program that has been read, with its default bindings and its default budget. -/
structure Program where
  nodes : List Node
  defaults : Environment
  limit : Option UInt64

namespace Program

/-- Runs a program with bindings over its defaults and with a budget in place of its own, if given. -/
def invoke (program : Program) (host : Host) (bindings : Environment) (limit : Option UInt64)
    (clock : Clock) : Outcome :=
  .ofNodes ⟨host, program.defaults.merged bindings⟩ (limit.or program.limit) program.nodes clock

end Program

namespace Workspace

/-- A workspace with given default bindings, the standard options and no budget. -/
def ofDefaults (defaults : Environment) : Workspace :=
  ⟨defaults, .standard, none⟩

/-- Reads a source text as a program. -/
def compile (workspace : Workspace) (source : String) : Except Error Program := do
  let nodes ← Reader.read workspace.options source
  return ⟨nodes, workspace.defaults, workspace.limit⟩

/-- Compiles a source text and runs it once. -/
def run (workspace : Workspace) (host : Host) (source : String) (bindings : Environment)
    (limit : Option UInt64) (clock : Clock) : Outcome :=
  match workspace.compile source with
  | .error error => .ofError error clock
  | .ok program => program.invoke host bindings limit clock

end Workspace

end MeteredRules
