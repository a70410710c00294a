import Mathlib.Algebra.Order.Ring.Int
import Mathlib.Data.List.Basic

/-!
# SpannerAdbc.Basic

ADBC errors as the driver builds them, and the saturating addition of its counters. Texts are lists
of characters throughout the development.
-/

namespace SpannerAdbc

/-- The ADBC status codes. -/
inductive Status where
  | unknown
  | notImplemented
  | notFound
  | alreadyExists
  | invalidArguments
  | invalidState
  | invalidData
  | integrity
  | internal
  | io
  | cancelled
  | timeout
  | unauthenticated
  | unauthorized
  deriving DecidableEq, Repr

structure Error where
  message : List Char
  status : Status
  vendorCode : Int
  details : Option (List (List Char × List UInt8))
  deriving DecidableEq, Repr

/-- `Error::with_message_and_status`. -/
def err (message : List Char) (status : Status) : Error :=
  { message, status, vendorCode := 0, details := none }

def invalidState (message : List Char) : Error := err message .invalidState

def invalidArgument (message : List Char) : Error := err message .invalidArguments

/-- The message is a whole sentence; `notImplemented` makes one of a noun. -/
def unsupported (message : List Char) : Error := err message .notImplemented

def notImplemented (what : List Char) : Error :=
  unsupported (what ++ " is not supported by the Spanner ADBC driver".toList)

def annotate (error : Error) (f : List Char → List Char) : Error :=
  { error with message := f error.message }

def cancelledErr : Error :=
  err ("operation cancelled: the ADBC cancel handle for this connection or statement was ".toList ++
    "signalled; execute the operation again to retry it".toList) .cancelled

/-- The error of `with_timeout`. -/
def timeoutErr (seconds option : List Char) : Error :=
  err ("operation timed out after ".toList ++ seconds ++ "s (".toList ++ option ++ ")".toList)
    .timeout

/-- The `{:?}` forms of the values that stand in error messages. -/
structure Debug where
  string : List Char → List Char
  char : Char → List Char

/-! ## gRPC statuses -/

/-- The canonical gRPC codes. -/
inductive Code where
  | ok
  | cancelled
  | unknown
  | invalidArgument
  | deadlineExceeded
  | notFound
  | alreadyExists
  | permissionDenied
  | resourceExhausted
  | failedPrecondition
  | aborted
  | outOfRange
  | unimplemented
  | internal
  | unavailable
  | dataLoss
  | unauthenticated
  deriving DecidableEq, Repr

def statusForGrpcCode : Code → Status
  | .notFound => .notFound
  | .alreadyExists => .alreadyExists
  | .unauthenticated => .unauthenticated
  | .permissionDenied => .unauthorized
  | .invalidArgument => .invalidArguments
  | .outOfRange => .invalidData
  | .failedPrecondition => .invalidState
  | .deadlineExceeded => .timeout
  | .cancelled => .cancelled
  | .unavailable => .io
  | .unimplemented => .notImplemented
  | .aborted => .io
  | .unknown => .unknown
  | .dataLoss => .io
  | .resourceExhausted | .internal | .ok => .internal

def permissionDeniedGuidance : List Char :=
  ("; grant an IAM role that includes it — see ".toList ++
    "https://cloud.google.com/spanner/docs/iam".toList)

/-- A `google.rpc.Status`, with its details already in the form of `details_for_adbc`. -/
structure RpcStatus where
  code : Int
  message : List Char
  details : Option (List (List Char × List UInt8))

/-- `codeOf` is the client library's reading of a numeric code. -/
def fromStatusParts (codeOf : Int → Code) (status : RpcStatus) : Error where
  message := "Spanner batch-write error: ".toList ++ status.message ++
    (if codeOf status.code = .permissionDenied then permissionDeniedGuidance else [])
  status := statusForGrpcCode (codeOf status.code)
  vendorCode := status.code
  details := status.details

/-! ## Counters -/

/-- `saturating_add` on 64 bits. -/
def saturatingAdd (a b : Nat) : Nat := min (a + b) (2 ^ 64 - 1)

end SpannerAdbc
