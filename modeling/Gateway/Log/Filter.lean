import Gateway.Log.Line
import Gateway.Text.Blank
import Gateway.Text.Reader

/-!
Filters that choose log lines. A filter is a list of directives, each with a target, names of
fields and a level. A line is judged by the most specific directive that cares about it: the one
with the longest target, then with the most fields. A line that no directive cares about is left
out.

Directives are written with commas between them, as `target[span{field,field}]=level`; every part
may be missing. A directive with a span is about lines inside spans only, so it chooses nothing
here.
-/
namespace Gateway.Log

/-- A level up to which lines are let through; `none` lets none through. -/
abbrev Threshold := Option Level

namespace Threshold

def lets (t : Threshold) (level : Level) : Bool :=
  t.any fun least => least.severity ≤ level.severity

def numbered : List Threshold :=
  [none, some .error, some .warn, some .info, some .debug, some .trace]

def named : List (String × Threshold) :=
  [("off", none), ("error", some .error), ("warn", some .warn), ("info", some .info),
    ("debug", some .debug), ("trace", some .trace)]

/-- Reads a threshold: its number, or its name in letters of any case. -/
def parse? (cs : List Char) : Option Threshold :=
  match (Text.unsigned? cs).bind fun n => numbered[n]? with
  | some t => some t
  | none => named.lookup (String.ofList (cs.map Char.toLower))

end Threshold

structure Directive where
  target : Option (List Char) := none
  /-- The directive is about lines in spans. -/
  spanned : Bool := false
  /-- Names of fields that a line must have; the flag says that a value is asked for too. -/
  fields : List (List Char × Bool) := []
  threshold : Threshold := some .trace

namespace Directive

/-- The directive chooses by what a line says of itself, not by the spans around it. -/
def isStatic (d : Directive) : Bool := !d.spanned && d.fields.all fun f => !f.2

def cares (d : Directive) (target : String) (line : Line) : Bool :=
  (d.target.all fun t => t.isPrefixOf target.toList)
    && d.fields.all fun f => line.fields.any fun g => g.1.toList == f.1

/-- A directive without a target is the least specific, then the shorter target. -/
def targetRank (d : Directive) : Nat :=
  match d.target with
  | none => 0
  | some t => t.length + 1

def yieldsTo (a b : Directive) : Bool :=
  a.targetRank < b.targetRank
    || (a.targetRank == b.targetRank && a.fields.length ≤ b.fields.length)

/-- The rest of a directive behind its target and span. Positions count from the start of `cs`. -/
def readThreshold? (cs : List Char) (position : Nat) (rest : List Char) (d : Directive) :
    Option Directive :=
  match rest with
  | [] => some { d with threshold := some .trace }
  | '=' :: _ =>
    match cs.drop (position + 1) with
    | [] => some { d with threshold := some .trace }
    | level => (Threshold.parse? level).map fun threshold => { d with threshold }
  | _ => none

def readField? (cs : List Char) : Option (List Char × Bool) :=
  if cs.isEmpty then none else some (cs.takeWhile (· != '='), cs.contains '=')

/-- A span in brackets, with a field in braces or without. The brackets are open. -/
def readSpan? (cs : List Char) (position : Nat) (rest : List Char) (d : Directive) :
    Option Directive :=
  let name := rest.takeWhile fun c => c != ']' && c != '\x7b'
  let position := position + name.length
  match rest.drop name.length with
  | ']' :: rest => readThreshold? cs (position + 1) rest { d with spanned := true }
  | '\x7b' :: rest =>
    let field := rest.takeWhile (· != '\x7d')
    match readField? field, rest.drop field.length with
    | some f, '\x7d' :: ']' :: rest =>
      readThreshold? cs (position + field.length + 3) rest
        { d with spanned := !name.isEmpty, fields := [f] }
    | _, _ => none
  | _ => none

/-- Characters that may begin a target. Beyond ASCII each counts as a letter. -/
def mayBegin (c : Char) : Bool :=
  c.isAlphanum || c == '-' || c == ':' || c == '_' || 0x80 ≤ c.toNat

/-- Reads one directive. Blanks at its ends are passed over when its parts are told apart, but the
parts are taken by position from the text with the blanks. A word alone is a level if it can be. -/
def parse? (cs : List Char) : Option Directive :=
  let body := Text.trim cs
  match body with
  | [] => none
  | '[' :: rest => readSpan? cs 1 rest {}
  | c :: _ =>
    if !mayBegin c then none
    else
      let head := body.takeWhile fun c => c != '=' && c != '['
      let position := head.length
      let d : Directive := { target := some (cs.take position) }
      match body.drop position with
      | [] =>
        match Threshold.parse? cs with
        | some threshold => some { threshold }
        | none => some { target := some cs }
      | '[' :: rest => readSpan? cs (position + 1) rest d
      | rest => readThreshold? cs position rest d

end Directive

structure Filter where
  directives : List Directive

namespace Filter

/-- A filter without any directive lets errors through. -/
def ofDirectives (ds : List Directive) : Filter :=
  if ds.isEmpty then ⟨[{ threshold := some .error }]⟩ else ⟨ds.filter Directive.isStatic⟩

/-- Reads directives with commas between them. Nothing between two commas is no directive. -/
def parse? (text : String) : Option Filter :=
  let parts := (text.toList.splitOn ',').filter fun part => !part.isEmpty
  (parts.mapM Directive.parse?).map ofDirectives

/-- The directive that judges a line. Of two equally specific ones the later counts. -/
def judge? (f : Filter) (target : String) (line : Line) : Option Directive :=
  (f.directives.filter fun d => d.cares target line).foldl (fun best d =>
    match best with
    | some b => if b.yieldsTo d then some d else some b
    | none => some d) none

def passes (f : Filter) (target : String) (line : Line) : Bool :=
  (f.judge? target line).any fun d => d.threshold.lets line.level

end Filter
end Gateway.Log
