import MeteredRules.Json.Exchange
import MeteredRules.Program

/-!
# Interactive sessions

A session reads lines. A line is an expression, which is evaluated and its value printed, or a
command, which starts with a colon and changes or shows the state of the session: the bindings, the
budget and the way in which values are printed.

The lines are those that a line editor hands over, which in the end has no more of them or fails. A
session takes its host, the parser of JSON texts and the clock as parameters.
-/

namespace MeteredRules

/-- What commands change. -/
structure Session where
  bindings : Environment
  limit : Option UInt64
  /-- Whether values are printed as JSON. -/
  json : Bool

/-- The commands of a session. -/
inductive Command where
  | help
  | listBindings
  | load (text : String)
  | clear
  | showLimit
  | removeLimit
  | setLimit (limit : UInt64)
  | badLimit
  | toggleJson
  | quit
  | unknown (name : String)
deriving DecidableEq

/-- A line of a session. -/
inductive Line where
  | blank
  | command (command : Command)
  | expression (source : String)
deriving DecidableEq

namespace Command

/-- Reads a budget: an optional plus sign and digits whose number fits 64 bits. -/
def readLimit? (text : List Char) : Option UInt64 :=
  let digits := match text with
    | '+' :: rest => rest
    | text => text
  (Decimal.readNat? digits).bind fun number =>
    if number < UInt64.size then some (UInt64.ofNat number) else none

/-- The command that sets, removes or shows the budget. -/
def ofLimit (argument : String) : Command :=
  if argument == "off" then .removeLimit
  else if argument == "" then .showLimit
  else
    match readLimit? argument.toList with
    | some limit => .setLimit limit
    | none => .badLimit

/-- The command of a name and an argument; most commands ignore theirs. -/
def ofName (name argument : String) : Command :=
  match name with
  | "help" => .help
  | "env" => .listBindings
  | "vars" => .load argument
  | "clear" => .clear
  | "budget" => ofLimit argument
  | "json" => .toggleJson
  | "quit" | "exit" => .quit
  | other => .unknown other

/-- The characters of a name. -/
def inName (character : Char) : Bool :=
  !Text.isBlank character

/-- Reads what follows the colon: a name up to the first blank, and an argument. -/
def read (text : List Char) : Command :=
  ofName (String.ofList (text.takeWhile inName)) (String.ofList (Text.trim (text.dropWhile inName)))

end Command

/-- Reads a line, without the blanks around it. -/
def Line.read (line : String) : Line :=
  match Text.trim line.toList with
  | [] => .blank
  | ':' :: rest => .command (Command.read rest)
  | text => .expression (String.ofList text)

namespace Session

/-- No bindings, a budget of 1000 operations and values printed as expressions. -/
def initial : Session :=
  ⟨.empty, some 1000, false⟩

/-- Lines are read with comments. -/
def workspace : Workspace :=
  { Workspace.ofDefaults .empty with options := { Reader.Options.standard with comments := true } }

/-- What is printed when a session starts. -/
def greeting : List String :=
  ["Interrotron sandboxed rule expression evaluator",
    "Enter expressions like: (+ (* 2 2) (% 5 4))",
    "Type :help for more commands, or Ctrl+C to exit.",
    ""]

/-- What is printed when a session ends. -/
def farewell : String :=
  "Goodbye!"

/-- The names of the built-in functions in their order, in rows of ten. -/
def functionRows : List String :=
  let names := (Builtin.all.map Builtin.name).mergeSort fun left right => left ≤ right
  (List.range ((names.length + 9) / 10)).map fun row =>
    "  " ++ Text.joined " " ((names.drop (10 * row)).take 10)

/-- The text of the help. -/
def help : List String :=
  ["Commands:",
    "  :help              Show this help",
    "  :vars <json>       Add bindings from a JSON object, e.g. :vars \x7b\"limit\": 10\x7d",
    "  :env               List current bindings",
    "  :clear             Remove all bindings",
    "  :budget <n|off>    Set the per-expression operation budget",
    "  :json              Toggle JSON output",
    "  :quit              Exit",
    "",
    "Language:",
    "  Literals: 42 2.5 'text' true false nil #t\x7b2012-05-01\x7d",
    "  Special forms: (and ..) (or ..) (if c then else) (cond test value ..)",
    "  Comments: ; to end of line",
    "",
    "Built-in functions:"] ++ functionRows

/-- The list of the bindings. -/
def bindingLines (bindings : Environment) : List String :=
  if bindings.isEmpty then ["No bindings (use :vars to add some)"]
  else bindings.toList.map fun (name, value) => "  " ++ name ++ " = " ++ value.display

/-- The text of a budget. -/
def limitLine : Option UInt64 → String
  | some limit => "Operation budget: " ++ limit.toNat.repr
  | none => "Operation budget: off"

/-- The text of an error. -/
def errorLine (error : Error) : String :=
  "Error: " ++ error.render

/-- The text of a value; one without a JSON text is displayed in any case. -/
def valueLine (session : Session) (value : Value) : String :=
  if session.json then
    match value.jsonText with
    | .ok text => text
    | .error _ => value.display
  else value.display

/-- Runs a command; the result is the new state and what is printed. -/
def runCommand (session : Session) (parse : Json.Parser) : Command → Session × List String
  | .help => (session, help)
  | .listBindings => (session, bindingLines session.bindings)
  | .load text =>
    match Environment.ofJsonText parse text with
    | .ok loaded =>
      ({ session with bindings := session.bindings.merged loaded },
        ["Loaded " ++ loaded.size.repr ++ " binding(s)"])
    | .error error => (session, [errorLine error])
  | .clear => ({ session with bindings := .empty }, ["Bindings cleared"])
  | .showLimit => (session, [limitLine session.limit])
  | .removeLimit => ({ session with limit := none }, ["Operation budget disabled"])
  | .setLimit limit => ({ session with limit := some limit }, [limitLine (some limit)])
  | .badLimit => (session, ["Error: expected a number or 'off'"])
  | .toggleJson =>
    ({ session with json := !session.json },
      ["Results shown as " ++ if session.json then "expressions" else "JSON"])
  | .quit => (session, [farewell])
  | .unknown name => (session, ["Unknown command :" ++ name ++ " (try :help)"])

/-- Evaluates an expression; the result is the clock that it left and what is printed. -/
def runExpression (session : Session) (host : Host) (source : String) (clock : Clock) :
    Clock × List String :=
  let outcome := workspace.run host source session.bindings session.limit clock
  (outcome.clock,
    [match outcome.result with
    | .ok value => session.valueLine value
    | .error error => errorLine error])

/-- What a line does to a session and its clock, what it prints and whether it ends the session. -/
structure Reply where
  session : Session
  clock : Clock
  output : List String
  finished : Bool

/-- Answers one line. -/
def answer (session : Session) (host : Host) (parse : Json.Parser) (clock : Clock)
    (line : String) : Reply :=
  match Line.read line with
  | .blank => ⟨session, clock, [], false⟩
  | .command command =>
    let (changed, output) := session.runCommand parse command
    ⟨changed, clock, output, command = .quit⟩
  | .expression source =>
    let (changed, output) := session.runExpression host source clock
    ⟨session, changed, output, false⟩

/-- What the line editor gives in place of a further line. -/
inductive Ending where
  | endOfInput
  | interrupted
  /-- The editor failed with an error, which is given as its description. -/
  | failed (error : String)
  /-- The editor came to a halt without an answer. -/
  | panicked
deriving DecidableEq

/-- What a session printed, and whether it was broken off. -/
structure Transcript where
  output : List String
  brokenOff : Bool
deriving DecidableEq

/-- A transcript with what was printed before it. -/
def Transcript.after (printed : List String) (transcript : Transcript) : Transcript :=
  { transcript with output := printed ++ transcript.output }

/-- What is printed when there are no more lines. -/
def Ending.transcript : Ending → Transcript
  | .endOfInput | .interrupted => ⟨[farewell], false⟩
  | .failed error => ⟨["Error: " ++ error], false⟩
  | .panicked => ⟨[], true⟩

/-- Answers lines until one ends the session or there are no more. -/
def answerAll (session : Session) (host : Host) (parse : Json.Parser) (clock : Clock)
    (ending : Ending) : List String → Transcript
  | [] => ending.transcript
  | line :: lines =>
    let reply := session.answer host parse clock line
    if reply.finished then ⟨reply.output, false⟩
    else (reply.session.answerAll host parse reply.clock ending lines).after reply.output

/-- A whole session, from its greeting on. -/
def transcript (host : Host) (parse : Json.Parser) (clock : Clock) (lines : List String)
    (ending : Ending) : Transcript :=
  (initial.answerAll host parse clock ending lines).after greeting

end Session

end MeteredRules
