/-!
What a program takes on its command line: options with one value each, which may also come from
the environment, and commands with operands. Every program and every command can be asked for
help; a program that tells its version can be asked for that.
-/
namespace Gateway.CommandLine

structure Parameter where
  short : Char
  long : String
  envName : String
  about : String := ""
  /-- The value if neither line nor environment gives one. -/
  fallback : Option String := none
  required : Bool := false
  isPath : Bool := false

structure Verb where
  name : String
  about : String
  operands : List String := []

/-- The command line of a program. A program with verbs must be given one. -/
structure Grammar where
  name : String
  about : String
  version : Option String := none
  parameters : List Parameter := []
  verbs : List Verb := []

namespace Grammar

def verb? (g : Grammar) (name : String) : Option Verb := g.verbs.find? (·.name == name)

def long? (g : Grammar) (name : String) : Option Parameter := g.parameters.find? (·.long == name)

def short? (g : Grammar) (letter : Char) : Option Parameter :=
  g.parameters.find? (·.short == letter)

end Grammar

abbrev Values := List (String × String)

inductive Stop where
  | help (verb : Option Verb)
  | version
  | misuse

structure Order where
  values : Values
  verb : Option (Verb × List String)

def Order.value? (o : Order) (long : String) : Option String := o.values.lookup long

end Gateway.CommandLine
