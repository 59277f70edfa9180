import FitzDestroyer.Js.Regex
import FitzDestroyer.Schedule.Subscriber
import FitzDestroyer.Workload.Log
import FitzDestroyer.Workload.Model

/-!
# Contention

Two contenders race to commit: two transactions of KV that write one key
(`workloads/transaction-contention.ts`), or two sessions of Stream that append at offset zero
(`workloads/stream-replay.ts`).  A verifier reads what has become of the race, and the host
(`orchestration/transaction-contention.ts`, `orchestration/stream-replay.ts`) compares the logs.

* `contend` : a contender, up to the first stage that fails;
* `verifyTransaction`, `verifyReplay` : the verifiers;
* `analyzeTransactionContention`, `analyzeStreamReplay` : the host;
* `TransactionRun`, `StreamRun` : a run of the scenario, with the verdict of the host on it.
-/

namespace FitzDestroyer

namespace Contention

open Js Workload
open Schedule (OtherLine)

/-! ### Contenders -/

/-- A request that has failed. -/
structure Rejection where
  error : Thrown
  /-- The broker has rejected the request because of the conflict with the other contender. -/
  conflict : Bool

inductive ContenderOutcome where
  | committed
  | rejected (stage : String) (rejection : Rejection)

/-- The stages of a contender, with the answers in them. -/
def contend : List (String × Except Rejection Unit) → ContenderOutcome
  | [] => .committed
  | (_, .ok ()) :: stages => contend stages
  | (stage, .error rejection) :: _ => .rejected stage rejection

/-- The fields that a contender logs in the end. -/
def ContenderOutcome.fields (writer : ℕ) : ContenderOutcome → Record
  | .committed => [("writer", .count writer), ("outcome", .str "committed")]
  | .rejected stage rejection => [("writer", .count writer), ("outcome", .str "rejected"),
      ("stage", .str stage), ("error", .str rejection.error.errorMessage)]

/-- The lines that are not of the workload. -/
structure OtherLines where
  before : List OtherLine
  after : List OtherLine

/-- The log of a role that ends with a record. -/
def OtherLines.around (lines : OtherLines) (record : List LogLine) : Log :=
  lines.before.map OtherLine.line ++ record ++ lines.after.map OtherLine.line

/-- The log of a contender: it says that it is ready before its last stage. -/
def contenderLog (lines : OtherLines) (ready complete : String) (commitAtMs : ℤ) (writer : ℕ)
    (stages : List (String × Except Rejection Unit)) : Log :=
  let complete := logLine complete ((contend stages).fields writer)
  lines.around (match contend stages.dropLast with
    | .committed =>
      [logLine ready [("writer", .count writer), ("commitAtMs", .int commitAtMs)], complete]
    | .rejected _ _ => [complete])

/-- The log of a verifier: it ends with a record unless a check has thrown. -/
def verifierLog (lines : OtherLines) (complete : String) (result : Except Thrown Record) : Log :=
  lines.around (match result with
    | .ok fields => [logLine complete fields]
    | .error _ => [])

/-- The first contender whose payload was read. -/
def matchingWriter (payload : ℕ → List UInt8) (actual : List UInt8) (context : String) :
    Option ℕ :=
  [1, 2].find? fun writer => (assertBytesEqual actual (payload writer) context).isOk

/-- The other of two contenders. -/
def other (i : Fin 2) : Fin 2 := i.rev

/-! ### Transactions -/

section Transaction

/-- The options of a workload that decide its payloads. -/
structure Options where
  namespaceName : String
  seed : ℕ
  payloadBytes : ℕ
  /-- The number of records of a replay. -/
  operations : ℕ
  commitAtMs : ℤ

def transactionContentionRoute (o : Options) : String :=
  s!"kv://destroyer/{o.namespaceName}/transaction-contention"

def transactionPayload (o : Options) (identity : ℕ) : List UInt8 :=
  deterministicPayload o.seed o.payloadBytes .kv 0 identity

/-- The answers to a contender. -/
structure TransactionContender where
  began : Except Rejection Unit
  /-- The key was found. -/
  read : Except Rejection Bool
  put : Except Rejection Unit
  committed : Except Rejection Unit

def TransactionContender.stages (c : TransactionContender) :
    List (String × Except Rejection Unit) :=
  [("begin", c.began),
    ("read", c.read.bind fun found =>
      if found then .ok () else .error ⟨newError "KV contention baseline is missing", false⟩),
    ("put", c.put), ("commit", c.committed)]

/-- The answers to the verifier.  The rollback at its end throws nothing. -/
structure TransactionVerifier where
  began : Except Thrown Unit
  longLived : Except Thrown (Option (List UInt8))
  contended : Except Thrown (Option (List UInt8))

def verifyTransaction (o : Options) (v : TransactionVerifier) : Except Thrown Record := do
  v.began
  let longLived ← v.longLived
  Check.failIf (longLived.isSome = true)
    (newError "Long-lived transaction mutation escaped disconnect rollback")
  let contended ← v.contended
  match contended with
  | none => .error (newError "Contended KV winner is missing")
  | some value =>
    match matchingWriter (transactionPayload o) value "Contended KV winner" with
    | none => .error (newError "Contended KV value does not match either writer")
    | some winner =>
      return [("route", .str (transactionContentionRoute o)), ("winner", .count winner)]

end Transaction

/-! ### Streams -/

section Stream

def streamPayload (o : Options) (writer sequence : ℕ) : List UInt8 :=
  deterministicPayload o.seed o.payloadBytes .stream writer sequence

def boundaryPayload (seed bytes : ℕ) : List UInt8 :=
  stateBytes bytes (if seed = 0 then 0x9e3779b9 else UInt32.ofNat seed)

/-- The answers to a contender. -/
structure StreamContender where
  began : Except Rejection Unit
  appended : Except Rejection Unit
  committed : Except Rejection Unit

def StreamContender.stages (c : StreamContender) : List (String × Except Rejection Unit) :=
  [("begin", c.began), ("append", c.appended), ("commit", c.committed)]

structure StreamRecord where
  offset : ℕ
  body : List UInt8

/-- What a read of the stream returns, up to the error that ends it. -/
structure StreamRead where
  batches : List (List StreamRecord)
  failure : Option Thrown

/-- The answers to the verifier. -/
structure StreamVerifier where
  winner : StreamRead
  staleBegan : Except Thrown Unit
  staleAppended : Except Thrown Unit
  /-- The requests that append the other records. -/
  appends : List (Except Thrown Unit)
  replay : StreamRead
  boundaryAppends : List (Except Thrown Unit)
  boundary : StreamRead

/-- The loop of `replayWinner`. -/
def replayWinnerFrom (o : Options) (failure : Option Thrown) :
    List (List StreamRecord) → Except Thrown ℕ
  | [] => do
    Check.attempt failure
    .error (newError "Stream contention produced no offset-zero record")
  | [] :: batches => replayWinnerFrom o failure batches
  | (first :: _) :: batches =>
    if first.offset ≠ 0 then replayWinnerFrom o failure batches
    else
      match matchingWriter (streamPayload o · 0) first.body "Stream contention winner" with
      | some writer => .ok writer
      | none => .error (newError "Stream offset zero does not match either contender")

def replayWinner (o : Options) (read : StreamRead) : Except Thrown ℕ :=
  replayWinnerFrom o read.failure read.batches

/-- `/conflict/iu`. -/
def conflictText : Regex := Regex.lit Regex.foldEq "conflict"

def assertStaleOffsetConflict (v : StreamVerifier) : Except Thrown Unit := do
  v.staleBegan
  match v.staleAppended with
  | .ok () => .error (newError "Stale Stream expected offset was accepted")
  | .error error =>
    Check.failIf (conflictText.test error.errorMessage = false) error

/-- One record of the replay. -/
def replayRecord (o : Options) (winner observed : ℕ) (record : StreamRecord) :
    Except Thrown ℕ := do
  Check.failIf (record.offset ≠ observed) (newError
    s!"Stream replay offset {record.offset} != {observed}")
  assertBytesEqual record.body (streamPayload o (if observed = 0 then winner else 0) observed)
    s!"Stream replay {observed}"
  return observed + 1

def verifyReplay (o : Options) (v : StreamVerifier) : Except Thrown Record := do
  let winner ← replayWinner o v.winner
  assertStaleOffsetConflict v
  let total := max 1 o.operations
  Check.forEach v.appends id
  let observed ← v.replay.batches.foldlM (fun observed batch =>
    batch.foldlM (replayRecord o winner) observed) 0
  Check.attempt v.replay.failure
  Check.failIf (observed ≠ total) (newError s!"Stream replay observed {observed}/{total} records")
  Check.forEach v.boundaryAppends id
  let boundary := boundaryPayload o.seed 60000
  Check.forEach v.boundary.batches.flatten fun record =>
    assertBytesEqual record.body boundary "Stream boundary replay"
  Check.attempt v.boundary.failure
  let boundaryRecords := v.boundary.batches.flatten.length
  Check.failIf (boundaryRecords ≠ 1) (newError
    s!"Stream boundary replay returned {boundaryRecords} records")
  return [("winner", .count winner), ("offsetConflicts", .count 1), ("records", .count observed),
    ("pages", .count v.replay.batches.length), ("boundaryBytes", .count boundary.length),
    ("boundaryRecords", .count boundaryRecords)]

end Stream

/-! ### The host -/

section Host

def onlyLog (logs : List (String × Log)) : Except Thrown Log :=
  match logs with
  | [(_, log)] => .ok log
  | _ => .error (newError s!"Expected one workload log, found {logs.length}")

/-- `record.outcome === outcome`. -/
def hasOutcome (outcome : String) (record : Record) : Bool :=
  (field record "outcome").bind Json.text? = some outcome

/-- `value === true`. -/
def isTrue : Option Json → Bool
  | some (.bool value) => value
  | _ => false

structure TransactionContentionLedger where
  winner : ℕ
  conflicts : ℕ
  rollbackIsolated : Bool
  deleteHidden : Bool
  longLivedCleanup : Bool

def TransactionContentionLedger.toJson (l : TransactionContentionLedger) : Json := .obj
  [("winner", .count l.winner), ("conflicts", .count l.conflicts),
    ("rollbackIsolated", .bool l.rollbackIsolated), ("deleteHidden", .bool l.deleteHidden),
    ("longLivedCleanup", .bool l.longLivedCleanup)]

def analyzeTransactionContention (prepareLogs contenderLogs verifierLogs : List (String × Log)) :
    Except Thrown TransactionContentionLedger := do
  let prepareLog ← onlyLog prepareLogs
  let prepare ← requiredEvent prepareLog "transaction_prepare_complete"
  let outcomes ← contenderLogs.mapM fun p => requiredEvent p.2 "transaction_contender_complete"
  let committed := outcomes.filter (hasOutcome "committed")
  let rejected := outcomes.filter (hasOutcome "rejected")
  let verifierLog ← onlyLog verifierLogs
  let verifier ← requiredEvent verifierLog "transaction_cleanup_verified"
  let text := (Json.arr (outcomes.map .obj)).stringify
  Check.failIf (committed.length ≠ 1 ∨ rejected.length ≠ 1) (newError
    s!"Expected one KV winner and one conflict: {text}")
  let committedWriter ← numericValue (committed.head?.bind fun record => field record "writer")
    "committed transaction writer"
  let verifiedWinner ← numericValue (field verifier "winner") "transaction winner"
  Check.failIf (committedWriter ≠ verifiedWinner) (newError
    s!"Committed KV writer {committedWriter} != verified winner {verifiedWinner}")
  return {
    winner := verifiedWinner
    conflicts := rejected.length
    rollbackIsolated := isTrue (field prepare "rollbackIsolated")
    deleteHidden := isTrue (field prepare "deleteHidden")
    longLivedCleanup := true }

def assertTransactionContention (l : TransactionContentionLedger) : Except Thrown Unit :=
  let text := l.toJson.stringify
  Check.failIf ((l.winner ≠ 1 ∧ l.winner ≠ 2) ∨ l.conflicts ≠ 1 ∨ l.rollbackIsolated = false ∨
    l.deleteHidden = false ∨ l.longLivedCleanup = false) (newError
      s!"Transaction contention invariants failed: {text}")

structure StreamReplayLedger where
  winner : ℕ
  conflicts : ℕ
  offsetConflicts : ℕ
  records : ℕ
  pages : ℕ
  boundaryBytes : ℕ
  boundaryRecords : ℕ

def StreamReplayLedger.toJson (l : StreamReplayLedger) : Json := .obj
  [("winner", .count l.winner), ("conflicts", .count l.conflicts),
    ("offsetConflicts", .count l.offsetConflicts), ("records", .count l.records),
    ("pages", .count l.pages), ("boundaryBytes", .count l.boundaryBytes),
    ("boundaryRecords", .count l.boundaryRecords)]

def analyzeStreamReplay (contenderLogs verifierLogs : List (String × Log)) :
    Except Thrown StreamReplayLedger := do
  let outcomes ← contenderLogs.mapM fun p => requiredEvent p.2 "stream_replay_contender_complete"
  let committed := outcomes.filter (hasOutcome "committed")
  let rejected := outcomes.filter (hasOutcome "rejected")
  let text := (Json.arr (outcomes.map .obj)).stringify
  Check.failIf (committed.length ≠ 1 ∨ rejected.length ≠ 1) (newError
    s!"Expected one Stream winner and one conflict: {text}")
  let log ← match verifierLogs with
    | [(_, log)] => .ok log
    | _ => .error (newError
        s!"Expected one Stream replay verifier log, found {verifierLogs.length}")
  let record ← requiredEvent log "stream_replay_complete"
  let committedWriter ← numericValue (committed.head?.bind fun record => field record "writer")
    "committed Stream writer"
  let verifiedWinner ← numericValue (field record "winner") "stream winner"
  Check.failIf (committedWriter ≠ verifiedWinner) (newError
    s!"Committed Stream writer {committedWriter} != verified winner {verifiedWinner}")
  let offsetConflicts ← numericValue (field record "offsetConflicts") "stream offset conflicts"
  let records ← numericValue (field record "records") "stream records"
  let pages ← numericValue (field record "pages") "stream pages"
  let boundaryBytes ← numericValue (field record "boundaryBytes") "stream boundary bytes"
  let boundaryRecords ← numericValue (field record "boundaryRecords") "stream boundary records"
  return ⟨verifiedWinner, rejected.length, offsetConflicts, records, pages, boundaryBytes,
    boundaryRecords⟩

def assertStreamReplay (l : StreamReplayLedger) (expectedRecords : ℕ) : Except Thrown Unit :=
  let text := l.toJson.stringify
  Check.failIf ((l.winner ≠ 1 ∧ l.winner ≠ 2) ∨ l.conflicts ≠ 1 ∨ l.offsetConflicts ≠ 1 ∨
    l.records ≠ max 1 expectedRecords ∨ l.pages < 1 ∨ l.boundaryBytes ≠ 60000 ∨
    l.boundaryRecords ≠ 1) (newError s!"Stream replay invariants failed: {text}")

end Host

/-! ### Runs -/

/-- A run of `transaction-contention`, with any logs of the preparation. -/
structure TransactionRun where
  options : Options
  prepareLogs : List (String × Log)
  contender : Fin 2 → TransactionContender
  verifier : TransactionVerifier
  /-- The other lines of the contenders and of the verifier. -/
  contenderLines : Fin 2 → OtherLines
  verifierLines : OtherLines

namespace TransactionRun

variable (r : TransactionRun)

/-- The outcome of a contender.  The writers are one and two. -/
def outcome (i : Fin 2) : ContenderOutcome := contend (r.contender i).stages

/-- The verdict of the host. -/
def verdict : Except Thrown Unit := do
  let log i := contenderLog (r.contenderLines i) "transaction_contender_ready"
    "transaction_contender_complete" r.options.commitAtMs (i.val + 1) (r.contender i).stages
  let ledger ← analyzeTransactionContention r.prepareLogs [("0", log 0), ("1", log 1)]
    [("0", verifierLog r.verifierLines "transaction_cleanup_verified"
      (verifyTransaction r.options r.verifier))]
  assertTransactionContention ledger

/-- **A genuine conflict**: one contender commits, the verifier finds its value, and the other is
rejected because of the conflict. -/
def Genuine : Prop :=
  ∃ i, r.outcome i = .committed ∧
    r.verifier.contended = .ok (some (transactionPayload r.options (i.val + 1))) ∧
    ∃ stage rejection, r.outcome (other i) = .rejected stage rejection ∧ rejection.conflict = true

/-- The verdict accepts genuine conflicts only. -/
def Certifies : Prop := Check.Passes r.verdict → r.Genuine

end TransactionRun

/-- A run of `stream-replay`. -/
structure StreamRun where
  options : Options
  contender : Fin 2 → StreamContender
  verifier : StreamVerifier
  /-- The other lines of the contenders and of the verifier. -/
  contenderLines : Fin 2 → OtherLines
  verifierLines : OtherLines

namespace StreamRun

variable (r : StreamRun)

/-- The outcome of a contender.  The writers are one and two. -/
def outcome (i : Fin 2) : ContenderOutcome := contend (r.contender i).stages

/-- The verdict of the host. -/
def verdict : Except Thrown Unit := do
  let log i := contenderLog (r.contenderLines i) "stream_replay_contender_ready"
    "stream_replay_contender_complete" r.options.commitAtMs (i.val + 1) (r.contender i).stages
  let ledger ← analyzeStreamReplay [("0", log 0), ("1", log 1)]
    [("0", verifierLog r.verifierLines "stream_replay_complete"
      (verifyReplay r.options r.verifier))]
  assertStreamReplay ledger r.options.operations

/-- The verifier has read the payload of the contender at offset zero. -/
def Found (i : Fin 2) : Prop :=
  ∃ batch ∈ r.verifier.winner.batches, batch.head? =
    some ⟨0, streamPayload r.options (i.val + 1) 0⟩

/-- **A genuine conflict**: one contender commits, the verifier finds its record, and the other is
rejected because of the conflict. -/
def Genuine : Prop :=
  ∃ i, r.outcome i = .committed ∧ r.Found i ∧
    ∃ stage rejection, r.outcome (other i) = .rejected stage rejection ∧ rejection.conflict = true

/-- The verdict accepts genuine conflicts only. -/
def Certifies : Prop := Check.Passes r.verdict → r.Genuine

end StreamRun

end Contention

end FitzDestroyer
