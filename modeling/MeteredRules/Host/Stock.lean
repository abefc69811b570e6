import MeteredRules.Builtin.Call
import MeteredRules.Host.Basic

/-!
# Stock host functions

A table of small host functions that exercises every kind of parameter: plain argument lists, fixed
parameters, element lists and rests of arguments under every kind of arity.
-/

namespace MeteredRules.Host

/-- A function that neither fails nor reads the clock. -/
def total (function : List Value → Value) : Function :=
  fun arguments => pure (function arguments)

/-- A function that fails with an error made from its arguments. -/
def failing (error : List Value → Error) : Function :=
  fun arguments => .ofResult (.error (error arguments))

/-- The sum of the nearest floats of numbers, from left to right. -/
def floatSum (numbers : List Number) : Float :=
  numbers.foldl (fun sum number => sum + number.toFloat) (Float.ofNat 0)

/-- The number of elements of a list as a value. -/
def countValue {α : Type} (items : List α) : Value :=
  .int (Int64.ofInt items.length)

/-- The functions that work on their plain argument lists. -/
def rawFunctions : List HostFunction :=
  [.named "count-args" (.plain (total countValue)),
    .named "boom" (.plain (failing fun _ => .refuse (.reported "boom was evaluated"))),
    .named "host-fail" (.plain (failing fun arguments =>
      .fail (.reported (Text.joined "|" (arguments.map Value.plainText))))),
    .named "host-arity" (.plain (failing fun arguments =>
      .arity 7 arguments.length (some "(host)"))),
    .named "host-unbound" (.plain (failing fun _ => .unbound "inner")),
    .named "pick-callable" (.plain (total fun arguments =>
      .ofOption (arguments.find? fun
        | .callable _ => true
        | _ => false))),
    ⟨"anon", "lambda", total fun arguments => .ofOption arguments.getLast?⟩]

/-- The functions with fixed parameters. -/
def fixedFunctions : List HostFunction :=
  [.named "double" (.unary .integer fun number => pure (.int (number * 2))),
    .named "half" (.unary .float fun number => pure (.float (number / Float.ofNat 2))),
    .named "flip" (.unary .boolean fun truth => pure (.boolean !truth)),
    .named "epoch" (.unary .instant fun instant => pure (.int (Int64.ofInt instant.seconds))),
    .named "at-epoch" (.unary .integer fun seconds =>
      pure (.ofOption ((Instant.ofUnix? seconds.toInt 0).map .instant))),
    .named "shout" (.unary .string fun text => pure (.string (text ++ "!"))),
    .named "scale" (.binary .float .string fun factor text =>
      pure (.string (text ++ ":" ++ Number.floatText factor))),
    .named "pair" (.binary .value .value fun left right => pure (.array [left, right])),
    .named "same-number" (.unary .number fun number => pure (.number number)),
    .named "sum-array" (.unary (.array .number) fun numbers => pure (.float (floatSum numbers))),
    .named "join-array" (.unary (.array .string) fun texts =>
      pure (.string (Text.joined "," texts))),
    .named "last-string" (.unary (.array .string) fun texts =>
      pure (.ofOption (texts.getLast?.map .string))),
    .named "nothing" (.nullary (pure .nil)),
    .named "between" (.binary .integer (.array .number) fun least numbers =>
      pure (.array ((numbers.filter fun number =>
        (Number.int least).toFloat ≤ number.toFloat).map .number)))]

/-- The product of a weight and a sum of integers, without regard to overflow. -/
def weightedSum (weight : Int64) (numbers : List Number) : Except Error Value := do
  let sum ← numbers.foldlM
    (fun (sum : Int64) number =>
      match number with
      | .int value => Except.ok (sum + value)
      | .float _ => .error (.refuse (.reported "integers only")))
    0
  return .int (weight * sum)

/-- The functions of any number of arguments. -/
def variadicFunctions : List HostFunction :=
  [.named "total" (.variadic .any .number fun numbers =>
      pure (.float (floatSum numbers))),
    .named "concat" (.variadic (.atLeast 1) .string fun texts =>
      pure (.string (String.join texts))),
    .named "reversed" (.variadic (.exact 3) .value fun values =>
      pure (.array values.reverse)),
    .named "count-pairs" (.variadic .even .value fun values =>
      pure (.int (Int64.ofInt (values.length / 2 : Nat)))),
    .named "tagged" (.variadicAfter .any .string .value fun tag values =>
      pure (.string (tag ++ values.length.repr))),
    .named "weighted-sum" (.variadicAfter (.atLeast 2) .integer .number
      fun weight numbers => .ofResult (weightedSum weight numbers))]

/-- The stock functions. -/
def stockTable : List HostFunction :=
  rawFunctions ++ fixedFunctions ++ variadicFunctions

/-- The host with the stock functions. -/
def stock : Host :=
  ofTable stockTable

end MeteredRules.Host
