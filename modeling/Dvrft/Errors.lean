import Dvrft.Sqlite

/-!
The error types of the crates. Variants that only the modelled paths cannot
reach are left out; a cause that a variant wraps is kept.
-/

namespace Dvrft.Errors

open Sqlite

/-- Why the operating system refused a file operation. -/
inductive IoError where
  | notFound
  | permissionDenied
  | unexpectedEof
  | other (code : ℕ)
  deriving DecidableEq, Repr

inductive AcquisitionError where
  | sourceNotFound (path : String)
  | permissionDenied (path : String) (source : IoError)
  | invalidBlockSize (size : ℕ)
  | readError (path : String) (offset : ℕ) (source : IoError)
  | io (source : IoError)
  deriving DecidableEq, Repr

inductive ParserError where
  | grammarIoError (path : String) (source : IoError)
  | detectionFailed (evidencePath grammarsDir : String)
  | invalidMagicRule (grammarId : String)
  | blockTooSmall (actual expected : ℕ)
  | manifestError (path source : String)
  | databaseError (path : String) (source : SqlError)
  | acquisition (source : AcquisitionError)
  | io (source : IoError)
  deriving DecidableEq, Repr

end Dvrft.Errors
