import Std.Time.DateTime.Timestamp
import MeteredRules.Host.Basic
import MeteredRules.Session

/-!
# The command line

Reads the lines of a session from standard input and prints the answers. There are no host
functions. The clock is the wall clock, which is read anew for each reading that an answer takes.
The exit status is 1 if the session is broken off.
-/

namespace MeteredRules.Session

/-- The present instant. -/
def presentInstant : IO Instant := do
  let now ← Std.Time.Timestamp.now
  let nanos := now.toNanosecondsSinceUnixEpoch.toInt
  return (Instant.moveFrom? 0 0 nanos).getD Instant.epoch

/--
Answers a line with the readings that were taken so far. Where it takes one more, the wall clock is
read and the line answered again, which repeats its course up to this reading.
-/
partial def answerNow (session : Session) (line : String) (readings : List Instant) : IO Reply := do
  let reply := session.answer (Host.ofTable []) Json.parse (.ofReadings readings) line
  if reply.clock.taken ≤ readings.length then
    return reply
  session.answerNow line (readings ++ [← presentInstant])

/-- The next line of standard input, or how the input ends. -/
def nextLine : IO (Except Ending String) := do
  try
    let line ← (← IO.getStdin).getLine
    return if line.isEmpty then .error .endOfInput else .ok line
  catch error =>
    return .error (.failed (toString error))

/-- Answers lines until one ends the session or the input ends. -/
partial def serve (session : Session) : IO UInt32 := do
  match ← nextLine with
  | .error ending =>
    ending.transcript.output.forM IO.println
    return if ending.transcript.brokenOff then 1 else 0
  | .ok line =>
    let reply ← session.answerNow line []
    reply.output.forM IO.println
    if reply.finished then
      return 0
    reply.session.serve

end MeteredRules.Session

/-- Runs an interactive session. -/
def main : IO UInt32 := do
  MeteredRules.Session.greeting.forM IO.println
  MeteredRules.Session.initial.serve
