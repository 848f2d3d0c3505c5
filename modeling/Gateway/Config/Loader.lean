import Gateway.Config.Reader
import Gateway.Config.Validation
import Gateway.Text.Bytes
import Gateway.Toml.Parse

/-!
Loading a configuration file: its bytes must be text, the text a document, the document a
configuration, and the configuration without errors.
-/
namespace Gateway.Config

inductive LoadError where
  /-- There is no such file, or it is not text. -/
  | unreadable
  | unparsable
  | invalid (errors : List ValidationError)
  deriving DecidableEq, Repr

def invalidMessage (errors : List ValidationError) : String :=
  "Validation failed: " ++ ", ".intercalate (errors.map ValidationError.message)

def LoadError.message : LoadError → String
  | .unreadable => "the configuration file cannot be read"
  | .unparsable => "the configuration file is no configuration"
  | .invalid errors => invalidMessage errors

def ServerConfig.accept (c : ServerConfig) : Except LoadError ServerConfig :=
  if c.errors.isEmpty then .ok c else .error (.invalid c.errors)

def parse (text : String) : Except LoadError ServerConfig :=
  match (Toml.parse? text).bind (ServerConfig.ofDocument? .ignored) with
  | some c => c.accept
  | none => .error .unparsable

def load (file : Option (List UInt8)) : Except LoadError ServerConfig :=
  match file.bind Text.ofBytes? with
  | some text => parse text
  | none => .error .unreadable

end Gateway.Config
