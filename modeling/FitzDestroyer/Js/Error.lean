import FitzDestroyer.Js.Number

/-!
# Thrown values
-/

namespace FitzDestroyer

namespace Js

/-- A thrown value: an `Error`, with the domain code the Fitz client adds to broker errors, or
any other value, of which only `String(value)` matters. -/
inductive Thrown where
  | error (name message : String) (domainCode : Option Number)
  | other (text : String)
  deriving DecidableEq

namespace Thrown

/-- `error instanceof Error ? error.name : ""`. -/
def name : Thrown → String
  | error name _ _ => name
  | other _ => ""

/-- `error.domainCode`, where the value has one. -/
def domainCode : Thrown → Option Number
  | error _ _ code => code
  | other _ => none

/-- `errorMessage(error)`, the copy of every module that logs errors. -/
def errorMessage : Thrown → String
  | error name message _ => s!"{name}: {message}"
  | other text => text

end Thrown

/-- `new Error(message)`. -/
def newError (message : String) : Thrown := .error "Error" message none

end Js

end FitzDestroyer
