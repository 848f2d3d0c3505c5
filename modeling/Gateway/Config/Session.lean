import Gateway.Document

/-!
The policy a session runs under, and partial policies laid over it. A value is never edited once
a session holds it; laying overrides over it makes a new one.
-/
namespace Gateway.Config

/-- A length of time in nanoseconds. -/
structure Duration where
  nanos : Nat
  deriving DecidableEq, Repr

namespace Duration

def ofMillis (n : Nat) : Duration := ⟨n * 1000000⟩

def ofSecs (n : Nat) : Duration := ⟨n * 1000000000⟩

def wholeSecs (d : Duration) : Nat := d.nanos / 1000000000

def wholeMillis (d : Duration) : Nat := d.nanos / 1000000

end Duration

inductive Role where
  | server
  | client
  deriving DecidableEq, Repr

def Role.label : Role → String
  | .server => "server"
  | .client => "client"

structure SessionConfig where
  /-- Seconds of silence before a session is closed; zero switches this off. -/
  idleTimeoutSecs : Nat := 30
  inputBufferSize : Nat := 4096
  outputBufferSize : Nat := 4096
  maxTextMessageSize : Nat := 65536
  maxBinaryMessageSize : Nat := 65536
  maxFrameSize : Nat := 65536
  /-- Outgoing messages above the frame ceiling are allowed. -/
  autoFragment : Bool := true
  role : Role := .server
  deriving DecidableEq, Repr, Inhabited

/-- A policy with any of its fields left out. The role cannot be overridden. -/
structure Overrides where
  idleTimeoutSecs : Option Nat := none
  inputBufferSize : Option Nat := none
  outputBufferSize : Option Nat := none
  maxTextMessageSize : Option Nat := none
  maxBinaryMessageSize : Option Nat := none
  maxFrameSize : Option Nat := none
  autoFragment : Option Bool := none
  deriving DecidableEq, Repr, Inhabited

namespace SessionConfig

def idleTimeout (c : SessionConfig) : Option Duration :=
  if 0 < c.idleTimeoutSecs then some (.ofSecs c.idleTimeoutSecs) else none

def maxMessageSize (c : SessionConfig) : Nat := max c.maxTextMessageSize c.maxBinaryMessageSize

def customized (c : SessionConfig) (o : Overrides) : SessionConfig where
  idleTimeoutSecs := o.idleTimeoutSecs.getD c.idleTimeoutSecs
  inputBufferSize := o.inputBufferSize.getD c.inputBufferSize
  outputBufferSize := o.outputBufferSize.getD c.outputBufferSize
  maxTextMessageSize := o.maxTextMessageSize.getD c.maxTextMessageSize
  maxBinaryMessageSize := o.maxBinaryMessageSize.getD c.maxBinaryMessageSize
  maxFrameSize := o.maxFrameSize.getD c.maxFrameSize
  autoFragment := o.autoFragment.getD c.autoFragment
  role := c.role

/-- The policy as a document, keys in alphabetical order. The role is not part of it. -/
def toDocument (c : SessionConfig) : Document := .table [
  ("auto_fragment", .bool c.autoFragment),
  ("idle_timeout_secs", .ofNat c.idleTimeoutSecs),
  ("input_buffer_size", .ofNat c.inputBufferSize),
  ("max_binary_message_size", .ofNat c.maxBinaryMessageSize),
  ("max_frame_size", .ofNat c.maxFrameSize),
  ("max_text_message_size", .ofNat c.maxTextMessageSize),
  ("output_buffer_size", .ofNat c.outputBufferSize)]

end SessionConfig

inductive Setting where
  | idleTimeout (d : Duration)
  | inputBufferSize (n : Nat)
  | outputBufferSize (n : Nat)
  | maxTextMessageSize (n : Nat)
  | maxBinaryMessageSize (n : Nat)
  | maxFrameSize (n : Nat)
  | autoFragment (b : Bool)
  deriving DecidableEq, Repr

namespace Overrides

/-- Sets one override; an earlier value of the same field is lost. -/
def set (o : Overrides) : Setting → Overrides
  | .idleTimeout d => { o with idleTimeoutSecs := some d.wholeSecs }
  | .inputBufferSize n => { o with inputBufferSize := some n }
  | .outputBufferSize n => { o with outputBufferSize := some n }
  | .maxTextMessageSize n => { o with maxTextMessageSize := some n }
  | .maxBinaryMessageSize n => { o with maxBinaryMessageSize := some n }
  | .maxFrameSize n => { o with maxFrameSize := some n }
  | .autoFragment b => { o with autoFragment := some b }

def setAll (o : Overrides) (settings : List Setting) : Overrides := settings.foldl set o

def entries (o : Overrides) : List (String × Document) := [
  ("auto_fragment", .ofOption .bool o.autoFragment),
  ("idle_timeout_secs", .ofOption .ofNat o.idleTimeoutSecs),
  ("input_buffer_size", .ofOption .ofNat o.inputBufferSize),
  ("max_binary_message_size", .ofOption .ofNat o.maxBinaryMessageSize),
  ("max_frame_size", .ofOption .ofNat o.maxFrameSize),
  ("max_text_message_size", .ofOption .ofNat o.maxTextMessageSize),
  ("output_buffer_size", .ofOption .ofNat o.outputBufferSize)]

end Overrides
end Gateway.Config
