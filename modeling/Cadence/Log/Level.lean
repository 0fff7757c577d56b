/-!
# Levels of the log
-/

namespace Cadence.Log

inductive Level where
  | debug | info | warning | error | critical
deriving DecidableEq, Repr

namespace Level

def label : Level → String
  | debug => "DEBUG"
  | info => "INFO"
  | warning => "WARNING"
  | error => "ERROR"
  | critical => "CRITICAL"

/-- All levels, in order. -/
def all : List Level := [debug, info, warning, error, critical]

def number : Level → Nat
  | debug => 10
  | info => 20
  | warning => 30
  | error => 40
  | critical => 50

end Level

end Cadence.Log
