import Gateway.Utf8.Error

/-!
What a session sends, and what can go wrong on it.
-/
namespace Gateway.Session

inductive Message where
  | text (s : String)
  | binary (bytes : List UInt8)
  deriving DecidableEq, Repr

def Message.size : Message → Nat
  | .text s => s.utf8ByteSize
  | .binary bytes => bytes.length

inductive Error where
  | closed
  | messageTooLarge (limit : Nat)
  | invalidText (source : Utf8.Error)
  | idleTimeout (secs : Nat)
  /-- The transport failed. Without a detail the wording is the transport's own. -/
  | transport (detail : Option String)
  | queueFull (capacity : Nat)
  | endpointPanicked (message : String)
  deriving DecidableEq, Repr

def Error.message : Error → String
  | .closed => "session is closed"
  | .messageTooLarge limit => "message exceeds the " ++ toString limit ++ " byte limit"
  | .invalidText source => source.message
  | .idleTimeout secs => "idle for longer than " ++ toString secs ++ " seconds"
  | .transport none => "transport error"
  | .transport (some detail) => "transport error: " ++ detail
  | .queueFull capacity => "outbound queue full (" ++ toString capacity ++ " messages)"
  | .endpointPanicked message => "endpoint panicked: " ++ message

/-- What a panic carries. Only text can be read back. -/
inductive PanicPayload where
  | text (s : String)
  | opaqueValue
  deriving DecidableEq, Repr

def PanicPayload.message : PanicPayload → String
  | .text s => s
  | .opaqueValue => "non-string panic payload"

end Gateway.Session
