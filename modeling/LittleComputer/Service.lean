import LittleComputer.Plain.Document
import LittleComputer.Request

/-!
# The service

Answers a request to run a program: with the result, or with the reason why it was refused.
-/

namespace LittleComputer

/-- What an answer says. -/
inductive Response.Body where
  /-- The result of the run. -/
  | document (document : Json)
  /-- Why nothing has been run. -/
  | detail (codes : List Nat)

/-- An answer: a status and what it says. -/
structure Response where
  /-- The status, as in the web's protocol. -/
  status : Nat
  /-- What the answer says. -/
  body : Response.Body

namespace Service

/-- The answer to a request that is refused. -/
def refused (refusal : Request.Refusal) : Response := ⟨400, .detail refusal.detail⟩

/-- The answer with a result; the error is nothing where there is none. -/
def answered (r : Plain.Result) : Response :=
  let error := match r.error with
    | some report => report.document
    | none => .null
  ⟨200, .document (.object (r.fields ++ [("error", error)]))⟩

/-- Runs what a request asks for and answers it, unless something escapes from the run.  There is no
answer if the run does not end. -/
def handle (fuel : Nat) (host : Host) (r : Request) : Option (Except Break Response) :=
  match r.resolve host with
  | .error refusal => some (.ok (refused refusal))
  | .ok (bytes, options) =>
    (Plain.runOn r.input fuel { options } (.bytes bytes) ⟨.warning, #[]⟩).map fun c =>
      c.outcome.map answered

end Service

end LittleComputer
