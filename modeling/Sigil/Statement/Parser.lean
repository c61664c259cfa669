import Sigil.Statement.Basic
import Sigil.Text.Identifier
import Sigil.Token.Split

/-!
Reading a line as a statement. The first character says which kind it has to be.
Between the parts of a statement only spaces and tabs count as a gap.
-/
namespace Sigil.Statement
open Text (takeIdentifier)

def isGap (c : Char) : Bool := c == ' ' || c == '\t'

def skipGap (text : Text) : Text := text.dropWhile isGap

def gap : Text → Option Text
  | [] => none
  | c :: rest => if isGap c then some (skipGap rest) else none

def expect (fixed text : Text) : Option Text := fixed.isPrefixOf? text

theorem expectSplit {fixed text rest : Text} (h : expect fixed text = some rest) : text = fixed ++ rest := by
  induction fixed generalizing text with
  | nil => exact Option.some.inj h
  | cons c fixed ih =>
    cases text with
    | nil => exact nomatch h
    | cons d text =>
      change (if c == d then expect fixed text else none) = some rest at h
      split at h
      · rename_i same
        simp [eq_of_beq same, ih h]
      · contradiction

theorem gapShorter {text rest : Text} (h : gap text = some rest) : rest.length < text.length := by
  cases text with
  | nil => simp [gap] at h
  | cons c tail =>
    simp only [gap] at h
    split at h
    · cases h
      exact Nat.lt_succ_of_le (List.dropWhile_sublist isGap).length_le
    · contradiction

def markedName (keyword text : Text) : Option (Text × Text) := do
  let rest ← expect keyword text
  let rest ← gap rest
  let rest ← expect ['$'] rest
  takeIdentifier rest

def callHead (text : Text) : Option (Text × Text × Text) := do
  let rest ← expect ['!'] text
  let (first, rest) ← takeIdentifier (skipGap rest)
  match expect [':'] rest with
  | some args => some (Call.defaultModule, first, args)
  | none =>
    let rest ← gap rest
    let (second, rest) ← takeIdentifier rest
    let args ← expect [':'] rest
    some (first, second, args)

def parseCall (text : Text) : Except SyntaxFault Call :=
  match callHead text.trim with
  | some (module, name, args) => (Token.arguments args).map fun args => ⟨module, name, args⟩
  | none => if ':' ∈ text.trim then .error (.callMalformed text.trim) else .error .callCutShort

theorem callHeadShorter {text module name args : Text} (h : callHead text = some (module, name, args)) :
    args.length < text.length := by
  simp only [callHead, bind, Option.bind_eq_some_iff] at h
  obtain ⟨rest, sign, ⟨first, after⟩, taken, h⟩ := h
  have whole := congrArg List.length (expectSplit sign)
  have skipped : (skipGap rest).length ≤ rest.length := (List.dropWhile_sublist isGap).length_le
  have split := congrArg List.length (Text.takeIdentifierSplit taken).1
  simp only [List.length_append, List.length_cons, List.length_nil] at whole split
  cases colon : expect [':'] after with
  | some tail =>
    simp only [colon, Option.some.injEq, Prod.mk.injEq] at h
    obtain ⟨_, _, rfl⟩ := h
    have last := congrArg List.length (expectSplit colon)
    simp only [List.length_append, List.length_cons] at last
    omega
  | none =>
    simp only [colon, Option.bind_eq_some_iff] at h
    obtain ⟨word, between, ⟨second, tail⟩, named, rest', closing, same⟩ := h
    simp only [Option.some.injEq, Prod.mk.injEq] at same
    obtain ⟨_, _, rfl⟩ := same
    have gone := gapShorter between
    have cut := congrArg List.length (Text.takeIdentifierSplit named).1
    have last := congrArg List.length (expectSplit closing)
    simp only [List.length_append, List.length_cons] at cut last
    omega

theorem parseCallShorter {text arg : Text} {call : Call} (h : parseCall text = .ok call)
    (member : arg ∈ call.args) : arg.length < text.length := by
  unfold parseCall at h
  split at h
  · rename_i module name args head
    obtain ⟨found, read, same⟩ := mapOk h
    cases same
    have whole := Text.trimLength text
    have inside := callHeadShorter head
    have short := Token.argumentsShorter read member
    omega
  · split at h <;> contradiction

def endLabel (line : Text) : Option Text :=
  match markedName "?end".toList line.trim with
  | some (label, rest) => if skipGap rest = [] then some label else none
  | none => none

def assignmentParts (line : Text) : Option (Text × Text × Text × Text) := do
  let rest ← expect ['$'] line
  let (name, rest) ← takeIdentifier rest
  let rest ← gap rest
  let type := rest.takeWhile Char.isAlpha
  let rest ← expect ['['] (rest.dropWhile Char.isAlpha)
  let flags := rest.takeWhile (· != ']')
  let rest ← expect [']'] (rest.dropWhile (· != ']'))
  let value ← expect ['='] (skipGap rest)
  if type.isEmpty || value.isBlankText then none else some (name, type, flags, value)

def flagList (text : Text) : List Text :=
  ((Text.fields '/' text).map Text.trim).filter fun flag => !flag.isEmpty

def parseAssignment (line : Text) : Except SyntaxFault Statement :=
  match assignmentParts line with
  | none => .error (.assignmentMalformed line)
  | some (name, typeName, flags, value) =>
    match ValueType.ofName? typeName with
    | none => .error (.unknownType typeName line)
    | some type =>
      (Token.assignmentValue value).map fun value => .assign ⟨name, type, flagList flags, value⟩

def parseLoop (line : Text) : Except SyntaxFault Statement :=
  match markedName "@n".toList line with
  | some (name, bounds) =>
    match Token.operands bounds with
    | .error fault => .error fault
    | .ok [lower, upper] =>
      .ok (.openLoop name (Token.unwrapGroup lower) (Token.unwrapGroup upper))
    | .ok _ => .error (.boundsMalformed line)
  | none =>
    match markedName "@b".toList line with
    | some (name, rest) =>
      if rest.isBlankText then .ok (.loopBack name) else .error (.loopMalformed line)
    | none => .error (.loopMalformed line)

def conditionalParts (line : Text) : Option (Text × Text) := do
  let (label, rest) ← markedName "?if".toList line
  let condition ← expect ['|'] (skipGap rest)
  if condition.isBlankText then none else some (label, condition.trim)

def parseConditional (line : Text) : Except SyntaxFault Statement :=
  if (endLabel line).isSome then .ok .nothing
  else match conditionalParts line with
    | some (label, condition) => .ok (.conditional label condition)
    | none => .error (.conditionalMalformed line)

def parse (line : Text) : Except SyntaxFault Statement :=
  match line.trim with
  | [] => .ok .nothing
  | c :: rest =>
    if c = '+' ∨ c = '#' then .ok .nothing
    else if c = '!' then (parseCall (c :: rest)).map .call
    else if c = '$' then parseAssignment (c :: rest)
    else if c = '@' then parseLoop (c :: rest)
    else if c = '?' then parseConditional (c :: rest)
    else .error (.unknownStatement (c :: rest))

end Sigil.Statement
