import Cadence.Provider.Client
import Cadence.Secret.Cipher
import Cadence.Storage.CredentialStore
import Cadence.Storage.RunLog
import Cadence.Storage.VerificationLog

/-!
# The world of an application

The state that all services of an application share: the time, the database, the line to the provider,
the sources of nonces and ids and how much was drawn from them, the fields of the logging context, and
a state of its own for the actions that an embedding program adds.
-/

namespace Cadence

/-- Where fresh nonces and ids come from, by the number of draws before. -/
structure Sources where
  nonce : Nat → List UInt8
  identifier : Nat → String

structure World (α : Type) where
  now : Instant
  sources : Sources
  line : Provider.Line
  custom : α
  database : Storage.Database := {}
  noncesDrawn : Nat := 0
  identifiersDrawn : Nat := 0
  logContext : Members := []

namespace World

variable {α β : Type}

def store (t : Instant → Task Storage.Database β) : Task (World α) β := do
  let now := (← get).now
  Task.focus (·.database) (fun w db => { w with database := db }) (t now)

def overLine (t : Task Provider.Line β) : Task (World α) β :=
  Task.focus (·.line) (fun w line => { w with line := line }) t

def drawIdentifier : Task (World α) String := do
  let w ← get
  set { w with identifiersDrawn := w.identifiersDrawn + 1 }
  return w.sources.identifier w.identifiersDrawn

/-- The token of a secret under a fresh nonce. An empty secret uses up no nonce. -/
def encrypt (cipher : Secret.Cipher) (secret : String) : Task (World α) String := do
  let w ← get
  let token ← cipher.encrypt (w.sources.nonce w.noncesDrawn) secret w.now
  set { w with noncesDrawn := w.noncesDrawn + 1 }
  return token

def decrypt (cipher : Secret.Cipher) (token : String) : Task (World α) String := do
  cipher.decrypt token (← get).now

end World

end Cadence
