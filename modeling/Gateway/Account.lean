import Gateway.Session.Basic
import Gateway.Upgrade.Container

/-!
Accounts of values in one line of text, for people who look into a running server. Text stands in
quotes; what is left out is shown as two dots.
-/
namespace Gateway

def quoted (cs : List Char) : String := String.ofList (Text.Quoted.encode cs)

def Path.Segment.account : Path.Segment → String
  | .literal text => "Literal(" ++ quoted text ++ ")"
  | .variableName name => "Variable(" ++ quoted name ++ ")"

def Path.Spec.account : Path.Spec → String
  | .exact path => "Exact(" ++ quoted path ++ ")"
  | .below base => "Prefix(" ++ quoted base ++ ")"
  | .suffix extension => "Suffix(" ++ quoted extension ++ ")"
  | .template declaration segments =>
    "UriTemplate \x7b declaration: " ++ quoted declaration ++ ", segments: ["
      ++ ", ".intercalate (segments.map Path.Segment.account) ++ "] \x7d"
  | .default => "Default"

def Config.SessionConfig.account (c : Config.SessionConfig) : String :=
  "WebSocketConfig \x7b idle_timeout_secs: " ++ toString c.idleTimeoutSecs
    ++ ", input_buffer_size: " ++ toString c.inputBufferSize
    ++ ", output_buffer_size: " ++ toString c.outputBufferSize
    ++ ", max_text_message_size: " ++ toString c.maxTextMessageSize
    ++ ", max_binary_message_size: " ++ toString c.maxBinaryMessageSize
    ++ ", max_frame_size: " ++ toString c.maxFrameSize
    ++ ", auto_fragment: " ++ (if c.autoFragment then "true" else "false")
    ++ ", behavior: " ++ (match c.role with | .server => "Server" | .client => "Client") ++ " \x7d"

def Upgrade.Negotiator.account (n : Upgrade.Negotiator) : String :=
  "Negotiator \x7b spec: " ++ n.spec.account ++ ", config: " ++ n.config.account ++ ", .. \x7d"

/-- A session. Its id is given as text, because it is random. -/
def Session.account (s : Session) (id : String) : String :=
  "Session \x7b id: SessionId(" ++ id ++ "), path: " ++ quoted s.matched.path
    ++ ", path_spec: " ++ s.matched.spec.account
    ++ ", subprotocol: " ++ (match s.subprotocol with
      | none => "None"
      | some p => "Some(" ++ Text.Quoted.ofString p ++ ")")
    ++ ", state: " ++ s.phase.title ++ ", .. \x7d"

end Gateway
