import Mathlib.Tactic.Common

namespace Metamorphosis

/-- `DBErrorType`. -/
inductive DBErrorType where
  | internal
  | invalidArgument
  | notFound
deriving DecidableEq

/-- `DBError`. -/
structure DBError where
  errorType : DBErrorType
  statusMessage : String
deriving DecidableEq

/-- `DBError::Message`. -/
def DBError.message (error : DBError) : String :=
  let result := match error.errorType with
    | .internal => "Internal"
    | .notFound => "NotFound"
    | .invalidArgument => "InvalidArgument"
  if error.statusMessage.isEmpty then result else result ++ ": " ++ error.statusMessage

/-- `RpcErrorType`. -/
inductive RpcErrorType where
  | networkError
  | connectionRefused
  | handlerNotFound
  | internal
  | parseError
  | cancelled
deriving DecidableEq

/-- `RpcError`. -/
structure RpcError where
  errorType : RpcErrorType
  statusMessage : String
deriving DecidableEq

end Metamorphosis
