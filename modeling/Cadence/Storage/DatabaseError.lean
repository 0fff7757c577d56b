/-!
# Errors of the database

What a database says about a failed statement can hold parameters of the statement, so a log line gets
the driver's own message and nothing else.
-/

namespace Cadence.Storage

inductive DatabaseError where
  /-- The layer itself failed, in the named way. -/
  | layer (name : String)
  /-- The driver failed, in the named way and with its own message. -/
  | driver (name message : String)
deriving DecidableEq, Repr

def DatabaseError.describe : DatabaseError → String
  | layer name => name
  | driver name message => name ++ ": " ++ message

end Cadence.Storage
