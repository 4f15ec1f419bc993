import TypedClient.Endpoint.Basic
import TypedClient.Failure
import TypedClient.Text.Digit

/-!
# `TypedClient.Endpoint.Success`: which schema a method returns and takes

A method returns what the least successful status with content promises. Of several
content types JSON comes first, then any other type of JSON, then the first one listed.
Statuses are compared as numbers; a status made of digits that are no decimal digits
cannot be compared.
-/

set_option autoImplicit false

namespace TypedClient

/-- The text occurs in another one. -/
def occursIn (part : List Char) : List Char → Bool
  | [] => part.isEmpty
  | c :: rest => part.isPrefixOf (c :: rest) || occursIn part rest

/-- The schema of the content type that is preferred. -/
def preferredSchema (content : Content) : Option Schema :=
  match content.lookup "application/json" with
  | some schema => some schema
  | none =>
    match content.find? fun e => occursIn "json".toList e.1.toList with
    | some e => some e.2
    | none => content.head?.map Prod.snd

namespace Endpoint

/-- The status means success: three digits, the first one a 2. -/
def isSuccess (status : String) : Bool :=
  let cs := status.toList
  cs.all Text.isDigit && cs.length = 3 && cs.head? = some '2'

/-- The number of a status, if its digits are decimal digits. -/
def statusNumber (status : String) : Except Failure Nat :=
  match status.toList.mapM Text.decimalValue? with
  | some ds => .ok (Text.ofDigits 10 ds)
  | none => .error (.defect .malformedNumber)

/-- The successful statuses with their numbers, in ascending order. -/
def successCodes (e : Endpoint) : Except Failure (List (Nat × String)) := do
  let codes ← ((e.responses.map Prod.fst).filter isSuccess).mapM fun status => do
    let n ← statusNumber status
    pure (n, status)
  -- The sort is stable: of statuses with one number the first listed comes first.
  pure (codes.mergeSort fun a b => a.1 ≤ b.1)

/-- The content of the response to a status. -/
def contentOf (e : Endpoint) (status : String) : Content :=
  ((e.responses.lookup status).map Response.content).getD []

/-- The least successful status with content, or else the least successful status. -/
def successStatus (e : Endpoint) : Except Failure (Option String) := do
  let codes := (← e.successCodes).map Prod.snd
  pure ((codes.find? fun status => !(e.contentOf status).isEmpty).or codes.head?)

/-- The schema that a successful call returns. -/
def successSchema (e : Endpoint) : Except Failure (Option Schema) := do
  let status ← e.successStatus
  pure (status.bind fun s => preferredSchema (e.contentOf s))

/-- The schema of the request body. -/
def bodySchema (e : Endpoint) : Option Schema :=
  e.requestBody.bind fun b => preferredSchema b.content

end Endpoint

end TypedClient
