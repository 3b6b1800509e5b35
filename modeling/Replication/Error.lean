/-!
# Failures of the engine

Everything that can go wrong, by cause. A cause has a kind, which counters are labelled with, says
whether trying again may help, and has a text, except that the text of a broken connection is the
network's own.
-/

namespace Replication

/-- A failure. -/
inductive SyncError where
  /-- The remote authority could not be reached or could not answer. -/
  | transport (operation message : String)
  /-- The connection itself failed. -/
  | connection (operation : String)
  /-- The server refused one mutation. -/
  | serverRejection (mutation reason : String)
  /-- The database refused an access. -/
  | persistence
  /-- The local document store refused a write. -/
  | localStore (message : String)
  /-- The server's answer breaks the contract. -/
  | protocol (message : String)
  /-- The credentials are refused or cannot be renewed. -/
  | session (message : String)
  /-- The configuration is invalid. -/
  | config (message : String)
  /-- A call at the wrong moment. -/
  | invalidState (expected actual : String)
  /-- The engine is stopping. -/
  | shutdown
  | internal (message : String)
  deriving DecidableEq, Repr

namespace SyncError

/-- The name of the kind. -/
def kind : SyncError → String
  | .transport .. => "transport"
  | .connection .. => "transport"
  | .serverRejection .. => "server_rejection"
  | .persistence => "persistence"
  | .localStore .. => "local_store"
  | .protocol .. => "protocol"
  | .session .. => "session"
  | .config .. => "config"
  | .invalidState .. => "invalid_state"
  | .shutdown => "shutdown"
  | .internal .. => "internal"

/-- Whether trying again at once may help. -/
def retryable : SyncError → Bool
  | .transport .. | .connection .. | .persistence | .localStore .. | .session .. => true
  | _ => false

/-- The text of a failure. A database that gives no access is described as a full pool. -/
def text : SyncError → String
  | .transport operation message => "Transport error (" ++ operation ++ "): " ++ message
  | .connection operation => "Transport error (" ++ operation ++ "): connection failed"
  | .serverRejection mutation reason => "Server rejected mutation " ++ mutation ++ ": " ++ reason
  | .persistence => "Persistence error: pool timed out while waiting for an open connection"
  | .localStore message => "Local store error: " ++ message
  | .protocol message => "Protocol error: " ++ message
  | .session message => "Session error: " ++ message
  | .config message => "Configuration error: " ++ message
  | .invalidState expected actual =>
    "Invalid state: expected " ++ expected ++ ", got " ++ actual
  | .shutdown => "Shutdown in progress"
  | .internal message => "Internal error: " ++ message

/-- The text, unless another party words it. -/
def ownText? : SyncError → Option String
  | .persistence => none
  | .connection .. => none
  | e => some e.text

end SyncError

end Replication
