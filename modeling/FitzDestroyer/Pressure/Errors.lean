import FitzDestroyer.Js.Error
import FitzDestroyer.Js.Regex

/-!
# Errors of pressure operations

`normalizeErrorClass` (`src/pressure.ts`) sorts the errors of the client by their texts.  An error
of some classes leaves it open whether the broker applied the operation.
-/

namespace FitzDestroyer

namespace Pressure

open Js

inductive NormalizedErrorClass where
  | timeout
  | connection
  | capacity
  | conflict
  | cancelled
  | protocol
  | unknown
  deriving DecidableEq, Repr

def NormalizedErrorClass.name : NormalizedErrorClass → String
  | timeout => "timeout"
  | connection => "connection"
  | capacity => "capacity"
  | conflict => "conflict"
  | cancelled => "cancelled"
  | protocol => "protocol"
  | unknown => "unknown"

/-- `/\b(?:abort|cancel)\w*\b/iu`. -/
def cancelledWords : Regex :=
  .seq (.boundary Regex.isWordFold) (.seq
    (Regex.oneOf (["abort", "cancel"].map (Regex.lit Regex.foldEq)))
    (.seq (.star (.char Regex.isWordFold)) (.boundary Regex.isWordFold)))

/-- `/\breceived SIG(?:INT|TERM)\b/u`. -/
def receivedSignal : Regex :=
  .seq (.boundary Regex.isWord) (.seq
    (Regex.oneOf (["received SIGINT", "received SIGTERM"].map (Regex.lit (· == ·))))
    (.boundary Regex.isWord))

def normalizeErrorClass (error : Thrown) : NormalizedErrorClass :=
  let message := error.errorMessage
  let text := s!"{error.name} {message}"
  if error.name = "TimeoutError" ∨
      (Regex.words ["timeout", "timed out", "time out", "deadline"]).test message then .timeout
  else if cancelledWords.test text ∨ receivedSignal.test message then .cancelled
  else if (Regex.words ["queuefull", "requestqueuefull", "capacity", "overload", "backpressure",
      "mailbox full"]).test text then .capacity
  else if (Regex.words ["conflict", "expectedoffsetmismatch", "already exists",
      "invalid token"]).test text then .conflict
  else if (Regex.words ["socket", "connection", "connect", "disconnect", "network", "econn",
      "closed", "websocket"]).test text then .connection
  else if (Regex.words ["protocol", "frame", "codec", "decode", "encode", "tlv",
      "buffer overflow", "cannot read"]).test text then .protocol
  else .unknown

/-- Whether the broker applied the operation is open. -/
def isAmbiguousDurableError (error : Thrown) : Bool :=
  let errorClass := normalizeErrorClass error
  errorClass = .timeout || errorClass = .connection || errorClass = .cancelled ||
    errorClass = .protocol

/-- `QUEUE_FULL`. -/
def queueFull : ℕ := 4005

def isQueueBackpressure (error : Thrown) : Bool := error.domainCode = some queueFull

/-- `STREAM_SESSION_ALREADY_ACTIVE`. -/
def streamSessionAlreadyActive : ℕ := 2002

def isPressureStreamCleanupPending (error : Thrown) : Bool :=
  error.domainCode = some streamSessionAlreadyActive

end Pressure

end FitzDestroyer
