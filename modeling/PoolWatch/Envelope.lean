/-!
# The payload inside a response

A response carries one JSON payload among text of its own. The payload runs from the first `{` to
the last `}`. This is right as long as the text around it has no braces.
-/

namespace PoolWatch.Envelope

/-- The payload begins at the first opening brace and ends at the last closing one. -/
def payloadChars? (raw : List Char) : Option (List Char) :=
  let opened := raw.dropWhile (· != '{')
  let closed := opened.reverse.dropWhile (· != '}')
  if closed.isEmpty then none else some closed.reverse

/-- From the first `{` to the last `}` after it. -/
def payload? (raw : String) : Option String :=
  (payloadChars? raw.toList).map String.ofList

/-- What a reader of the response is told when there is no payload. -/
def notFoundMessage : String := "No structured payload found in response"

end PoolWatch.Envelope
