import Sigil.Registry.Basic
import Sigil.Report
import Sigil.Text.Identifier
import Sigil.Text.Replace

/-!
Expanding a program. `+include` loads a module when its line is met; `+replace` records a rule. When
all lines have been read the rules are applied, one after the other, to the whole program. Every line
survives, trimmed, so that line numbers keep their meaning.
-/
namespace Sigil

structure Rule where
  needle : Text
  replacement : Text
  deriving DecidableEq, Repr

inductive Directive where
  | load (module : Text)
  | substitute (rule : Rule)
  deriving DecidableEq, Repr

namespace Directive

def splitWord (text : Text) : Text × Text :=
  let visible := fun c => !Text.isBlank c
  (text.trimStart.takeWhile visible, Text.trim (text.trimStart.dropWhile visible))

def parse (line directive : Text) : Except SyntaxFault Directive :=
  let (keyword, rest) := splitWord directive
  if keyword = "include".toList then
    if Text.isIdentifier rest then .ok (.load rest) else .error (.includeMalformed line)
  else if keyword = "replace".toList then
    let (needle, replacement) := splitWord rest
    if needle.isEmpty then .error (.replaceMalformed line) else .ok (.substitute ⟨needle, replacement⟩)
  else .error (.unknownDirective keyword)

def ofLine? (line : Text) : Option (Except SyntaxFault Directive) :=
  match line with
  | '+' :: directive => some (parse line directive)
  | _ => none

end Directive

namespace Rule

/-- A needle keeps the place of its first rule and takes the replacement of its last one. -/
def record (rule : Rule) : List Rule → List Rule
  | [] => [rule]
  | first :: rest => if first.needle = rule.needle then rule :: rest else first :: record rule rest

def apply (rule : Rule) (text : Text) : Text := Text.replace rule.needle rule.replacement text

def applyAll (rules : List Rule) (text : Text) : Text := rules.foldl (fun text rule => rule.apply text) text

end Rule

namespace Expansion
variable {ω : Type}

def gather (loader : Loader ω) : Nat → List Text → Registry ω → List Rule →
    Except Report (List Rule) × Registry ω
  | _, [], registry, rules => (.ok rules, registry)
  | number, line :: more, registry, rules =>
    match Directive.ofLine? line with
    | none => gather loader (number + 1) more registry rules
    | some (.error cause) => (.error ⟨.malformed cause, number, line, .preprocessing⟩, registry)
    | some (.ok (.substitute rule)) => gather loader (number + 1) more registry (rule.record rules)
    | some (.ok (.load module)) =>
      match registry.includeModule loader module with
      | (.ok (), loaded) => gather loader (number + 1) more loaded rules
      | (.error fault, after) => (.error ⟨fault, number, line, .preprocessing⟩, after)

def trimmedLines (source : Text) : List Text := source.lines.map Text.trim

def expand (loader : Loader ω) (registry : Registry ω) (source : Text) :
    Except Report Text × Registry ω :=
  match gather loader 1 (trimmedLines source) registry [] with
  | (.ok rules, loaded) => (.ok (Rule.applyAll rules (Text.joinLines (trimmedLines source))), loaded)
  | (.error report, after) => (.error report, after)

end Expansion
end Sigil
