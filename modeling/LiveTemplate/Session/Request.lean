import LiveTemplate.Session.Run

/-!
# Requests

A request names an operation and holds the data for it.
-/

namespace LiveTemplate.Session

/-- A text entry of a request. -/
def textEntry (request : Datum) (name : String) : Except String String :=
  match (request.entry? name).bind Datum.text? with
  | some value => .ok value
  | none => .error name

/-- Carry out a request, or name what is wrong with it. -/
def carryOut (request : Datum) : Except String Datum := do
  let operation ← textEntry request "op"
  match operation with
  | "tokenize" => return tokenizeAnswer (← textEntry request "source")
  | "parse" => return parseAnswer (← textEntry request "source")
  | "path" => return pathPartsAnswer (← textEntry request "text")
  | "value" => return answerAlone (ReactiveSteps.aboutValue request)
  | "render" => return answerAlone (renderOnce request)
  | "session" =>
    match (request.entry? "steps").bind Datum.list? with
    | some steps => return runSession (readConfig ((request.entry? "config").getD .null)) steps
    | none => .error "steps"
  | unknown => .error unknown

/-- The answer to a request. -/
def answer (request : Datum) : Datum :=
  match carryOut request with
  | .ok result => result
  | .error what => badInput what

end LiveTemplate.Session
