import Gateway.CommandLine.Grammar

/-!
Reading a command line. Arguments are taken in order, so the first thing that asks for help, for
the version, or is wrong decides. An option's value stands behind an equals sign, directly behind
the option's letter, or in the next argument. No option may be given twice. Behind two dashes every
argument is an operand.
-/
namespace Gateway.CommandLine

/-- An argument, by its form. A single dash is a word. -/
inductive Argument where
  | separator
  | long (name : String) (value : Option String)
  | shorts (letters : List Char)
  | word

def splitValue (cs : List Char) : String × Option String :=
  match cs.dropWhile (· != '=') with
  | _ :: value => (String.ofList (cs.takeWhile (· != '=')), some (String.ofList value))
  | [] => (String.ofList cs, none)

def Argument.ofString (s : String) : Argument :=
  match s.toList with
  | ['-', '-'] => .separator
  | '-' :: '-' :: rest => .long (splitValue rest).1 (splitValue rest).2
  | ['-'] => .word
  | '-' :: letters => .shorts letters
  | _ => .word

def Parameter.give (p : Parameter) (value : String) (values : Values) : Except Stop Values :=
  if (values.lookup p.long).isSome || (p.isPath && value.isEmpty) then .error .misuse
  else .ok ((p.long, value) :: values)

/-- Reads the letters behind one dash. An option takes the letters behind it as its value; if there
are none, it waits for the next argument. No flag lets another one follow. -/
def readLetters (g : Grammar) (values : Values) :
    List Char → Except Stop (Values × Option Parameter)
  | [] => .ok (values, none)
  | letter :: rest =>
    match g.short? letter, rest with
    | some p, [] => .ok (values, some p)
    | some p, '=' :: value => do return (← p.give (String.ofList value) values, none)
    | some p, value => do return (← p.give (String.ofList value) values, none)
    | none, _ =>
      if letter = 'h' then .error (.help none)
      else if letter = 'V' ∧ g.version.isSome then .error .version
      else .error .misuse

def readOperands (v : Verb) : List String → Bool → List String → Except Stop (List String)
  | taken, _, [] => if taken.length = v.operands.length then .ok taken else .error .misuse
  | taken, literal, a :: rest =>
    let operand := if taken.length < v.operands.length then
      readOperands v (taken ++ [a]) literal rest else .error .misuse
    if literal then operand
    else
      match Argument.ofString a with
      | .separator => readOperands v taken true rest
      | .long "help" none => .error (.help (some v))
      | .shorts ('h' :: _) => .error (.help (some v))
      | .long _ _ | .shorts _ => .error .misuse
      | .word => operand

def helpOn (g : Grammar) : List String → Stop
  | [] | ["help"] => .help none
  | [name] =>
    match g.verb? name with
    | some v => .help (some v)
    | none => .misuse
  | _ => .misuse

/-- Reads the arguments of a program. The option in `pending` waits for its value. -/
def readArguments (g : Grammar) :
    Values → Option Parameter → List String → Except Stop Order
  | values, none, [] => .ok ⟨values, none⟩
  | _, some _, [] => .error .misuse
  | values, pending, a :: rest =>
    match pending, Argument.ofString a with
    | some p, .word => do readArguments g (← p.give a values) none rest
    | some _, _ => .error .misuse
    | none, .separator => if rest.isEmpty then .ok ⟨values, none⟩ else .error .misuse
    | none, .long name value =>
      match g.long? name, value with
      | some p, some value => do readArguments g (← p.give value values) none rest
      | some p, none => readArguments g values (some p) rest
      | none, some _ => .error .misuse
      | none, none =>
        if name = "help" then .error (.help none)
        else if name = "version" ∧ g.version.isSome then .error .version
        else .error .misuse
    | none, .shorts letters => do
      let (values, pending) ← readLetters g values letters
      readArguments g values pending rest
    | none, .word =>
      match g.verb? a with
      | some v => do return ⟨values, some (v, ← readOperands v [] false rest)⟩
      | none => .error (if a = "help" ∧ !g.verbs.isEmpty then helpOn g rest else .misuse)

/-- Fills in what the environment gives, then what is left to fall back on. -/
def fill (environment : Values) : List Parameter → Values → Except Stop Values
  | [], values => .ok values
  | p :: rest, values =>
    match values.lookup p.long, environment.lookup p.envName, p.fallback with
    | some _, _, _ => fill environment rest values
    | none, some value, _ => do fill environment rest (← p.give value values)
    | none, none, some value => fill environment rest ((p.long, value) :: values)
    | none, none, none =>
      if p.required then .error .misuse else fill environment rest values

def Grammar.parse (g : Grammar) (environment : Values) (arguments : List String) :
    Except Stop Order := do
  let order ← readArguments g [] none arguments
  let values ← fill environment g.parameters order.values
  if order.verb.isNone && !g.verbs.isEmpty then .error .misuse
  else return { order with values }

end Gateway.CommandLine
