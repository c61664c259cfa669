import Sigil.Proofs.Expanded
import Sigil.Proofs.Limit
import Sigil.Proofs.RoundTrip

/-! Strings in a source text. Every text has a written form that stands on one line and in one pair of parentheses,
and that is read back as the same text. A call that is written with such arguments hands over these texts. -/
namespace Sigil

namespace Text

def quote (text : Text) : Text := '"' :: (escape text ++ ['"'])

theorem stringBodyEscape (text : Text) : Token.StringBody (escape text) := by
  induction text with
  | nil => exact .nil
  | cons c rest ih =>
    simp only [escape]
    split
    · exact .escaped ih
    · exact .escaped ih
    · exact .escaped ih
    · exact .escaped ih
    · rename_i line tab mark slash
      exact .plain ⟨mark, slash⟩ ih

theorem escapeUnbroken (text : Text) : '\n' ∉ escape text := by
  induction text with
  | nil => simp [escape]
  | cons c rest ih =>
    simp only [escape]
    split
    · simp [ih]
    · simp [ih]
    · simp [ih]
    · simp [ih]
    · rename_i line tab mark slash
      simp [ih, Ne.symm line]

theorem quoteEnclosed (text : Text) : Token.Enclosed (quote text) where
  trimmed := signTrimmed (by decide) (escape text) (List.cons_ne_nil _ _) (by decide)
  balanced := .quoted (stringBodyEscape text) .nil

def ended (lines : List Text) : Text := lines.flatMap fun line => line ++ ['\n']

theorem linesEnded {before : List Text} (unbroken : ∀ line ∈ before, '\n' ∉ line) (rest : Text) :
    lines (ended before ++ rest) = before.map withoutReturn ++ lines rest := by
  induction before with
  | nil => rfl
  | cons line more ih =>
    have others := ih fun other member => unbroken other (List.mem_cons_of_mem line member)
    have whole : ended (line :: more) ++ rest = line ++ '\n' :: (ended more ++ rest) := by simp [ended]
    rw [whole, linesBreak (unbroken line List.mem_cons_self), others, List.map_cons, List.cons_append]

/- The line stands in the source under this number: lines that have ended are before it, and the source ends behind
it or it ends there itself. -/
def StandsAt (line source : Text) (number : Nat) : Prop :=
  ∃ before behind, source = ended before ++ (line ++ behind) ∧ (∀ other ∈ before, '\n' ∉ other) ∧
    (behind = [] ∨ ∃ more, behind = '\n' :: more) ∧ number = before.length + 1

theorem StandsAt.trimmed {line source : Text} {number : Nat} (stands : line.StandsAt source number)
    (unbroken : '\n' ∉ line) (said : line.trim ≠ []) :
    ∃ index, number = index + 1 ∧ (Expansion.trimmedLines source)[index]? = some line.trim := by
  obtain ⟨before, behind, rfl, others, ends, rfl⟩ := stands
  have first : ∃ more, (lines (line ++ behind)).map trim = line.trim :: more := by
    rcases ends with rfl | ⟨more, rfl⟩
    · have filled : line ≠ [] := by
        rintro rfl
        exact said rfl
      rw [List.append_nil, linesAlone unbroken filled]
      exact ⟨[], rfl⟩
    · rw [linesBreak unbroken, List.map_cons, withoutReturnTrim]
      exact ⟨_, rfl⟩
  obtain ⟨more, first⟩ := first
  refine ⟨before.length, rfl, ?_⟩
  rw [Expansion.trimmedLines, linesEnded others, List.map_append, first, List.getElem?_append_right (by simp)]
  simp

structure Margin (text : Text) : Prop where
  blank : ∀ c ∈ text, isBlank c = true
  unbroken : '\n' ∉ text

theorem trimMargins {left right : Text} (before : left.Margin) (behind : right.Margin) (text : Text) :
    trim (left ++ (text ++ right)) = text.trim := trimAround before.blank behind.blank text

theorem identifierUnbroken {name : Text} (identifier : isIdentifier name = true) : '\n' ∉ name := by
  intro member
  have visible := wordCharVisible ((identifierChars identifier).2 '\n' member)
  revert visible
  decide

end Text

namespace Operand

theorem ofTrimmedQuote (inner : Text) : ofTrimmed ('"' :: inner) = ofString inner := ofTrimmedSigned (by decide) inner

theorem ofTokenQuote (text : Text) : ofToken text.quote = .ok (.literal (.str text)) := by
  have trimmed : text.quote.trim = text.quote := (Text.quoteEnclosed text).trimmed
  rw [ofToken, trimmed, Text.quote, ofTrimmedQuote]
  simp [ofString, Text.unescapeEscape]

end Operand

variable {ω : Type}

namespace Scope

theorem valuesQuote (scope : Scope ω) (strings : List Text) :
    (strings.map Text.quote).mapM scope.value = pure (strings.map Value.str) := by
  induction strings with
  | nil => rfl
  | cons text rest ih =>
    have own : scope.value text.quote = pure (.str text) := by rw [valueEq, Operand.ofTokenQuote]
    rw [List.map_cons, List.mapM_cons, own, ih]
    rfl

theorem callStrings (scope : Scope ω) {module name : Text} {strings : List Text} {function : HostFunction ω}
    (resolved : scope.registry.resolve module name = .ok function)
    (admitted : function.arity.Admits strings.length) (state : Nested ω) :
    (scope.call ⟨module, name, strings.map Text.quote⟩).run state =
      match function.call (strings.map .str) state.world with
      | (.ok value, world) => (.ok value, { state with world })
      | (.error message, world) => (.error (.hostFailure module name message), { state with world }) := by
  rw [call, valuesQuote, invoke]
  simp only [Eval.runBind, resolved, Eval.runOfExcept, List.length_map, Arity.checkPasses.mpr admitted]
  rfl

end Scope

namespace Statement
open Text (isIdentifier)

def stringCall (gap module name : Text) (strings : List Text) : Text :=
  spacedCall gap ⟨module, name, strings.map Text.quote⟩

theorem stringCallUnbroken {gap module name : Text} (between : gap.Margin) (qualifier : isIdentifier module = true)
    (identifier : isIdentifier name = true) (strings : List Text) : '\n' ∉ stringCall gap module name strings := by
  have args : '\n' ∉ (strings.map Text.quote).flatMap fun arg => gap ++ (inParens arg ++ [',']) := by
    intro member
    rw [List.flatMap_map] at member
    obtain ⟨text, _, inside⟩ := List.mem_flatMap.mp member
    simp [inParens, Text.quote, between.unbroken, Text.escapeUnbroken] at inside
  unfold stringCall spacedCall
  simp [Text.identifierUnbroken qualifier, Text.identifierUnbroken identifier, args]

theorem stringCallRead {gap module name : Text} (blank : ∀ c ∈ gap, Text.isBlank c = true)
    (qualifier : isIdentifier module = true) (identifier : isIdentifier name = true) (strings : List Text) :
    parse (stringCall gap module name strings) = .ok (.call ⟨module, name, strings.map Text.quote⟩) := by
  have trimmed : (stringCall gap module name strings).trim = stringCall gap module name strings := spacedTrimmed gap _
  have enclosed : ∀ arg ∈ strings.map Text.quote, Token.Enclosed arg := by
    intro arg member
    obtain ⟨text, _, rfl⟩ := List.mem_map.mp member
    exact Text.quoteEnclosed text
  unfold parse
  rw [trimmed]
  exact congrArg (Except.map Statement.call) (spacedRead blank ⟨qualifier, identifier, enclosed⟩)

end Statement

namespace Machine

def answered (machine : Machine ω) (module name line : Text) :
    Except Text Value × ω → Except Report Status × Machine ω
  | (.ok _, world) => (.ok (advance { machine with world }).status, advance { machine with world })
  | (.error message, world) =>
    (.error ⟨.hostFailure module name message, machine.counter, line, .executing⟩,
      { machine with world, status := .failed })

structure Passing (machine : Machine ω) (line module name : Text) (strings : List Text) (function : HostFunction ω) :
    Prop where
  running : machine.status = .running
  here : machine.line? machine.counter = some line
  parsed : Statement.parse line = .ok (.call ⟨module, name, strings.map Text.quote⟩)
  resolved : machine.registry.resolve module name = .ok function
  admitted : function.arity.Admits strings.length

namespace Passing
variable {machine : Machine ω} {line module name : Text} {strings : List Text} {function : HostFunction ω}

theorem step (passing : machine.Passing line module name strings function) :
    machine.step = machine.answered module name line (function.call (strings.map .str) machine.world) := by
  have called := Scope.callStrings machine.scope passing.resolved passing.admitted ⟨machine.depth, machine.world⟩
  have ran : machine.execute line = machine.executeCall ⟨module, name, strings.map Text.quote⟩ := by
    rw [execute, passing.parsed]
  simp only [executeCall, evaluate, called] at ran
  cases answer : function.call (strings.map .str) machine.world with
  | mk result world =>
    simp only [answer] at ran
    cases result with
    | ok value => exact stepOk passing.running passing.here ran
    | error message => exact stepError passing.running passing.here ran

theorem noted (passing : machine.Passing line module name strings function) (calls : List HostCall) :
    (machine.noting calls).Passing line module name strings (function.recorded module name) where
  running := passing.running
  here := passing.here
  parsed := passing.parsed
  resolved := by
    rw [noting, Registry.resolveJournaled, passing.resolved]
    rfl
  admitted := passing.admitted

theorem calls (passing : machine.Passing line module name strings function) :
    machine.calls = [⟨module, name, strings.map .str⟩] := by
  have world : (machine.noting []).world = ⟨machine.world, []⟩ := rfl
  rw [Machine.calls, (passing.noted []).step, world, HostFunction.recordedCall]
  cases function.call (strings.map .str) machine.world with
  | mk result world => cases result <;> rfl

end Passing

theorem loadedLine {source line : Text} {number : Nat} {settings : Settings} {loader : Loader ω} {world : ω}
    {start : Machine ω} (loaded : load source settings loader world = .ok start)
    (plain : Expansion.Plain (Expansion.trimmedLines source)) (stands : line.StandsAt source number)
    (unbroken : '\n' ∉ line) (said : line.trim ≠ []) : start.line? number = some line.trim := by
  obtain ⟨index, rfl, here⟩ := stands.trimmed unbroken said
  have kept := Text.settledKeeps here said
  rw [line?, Expansion.loadedPlain plain loaded]
  simpa using kept

theorem stringsArrive {source gap left right module name : Text} {number : Nat} {strings : List Text}
    {settings : Settings} {loader : Loader ω} {world : ω} {start : Machine ω} {function : HostFunction ω}
    (between : gap.Margin) (before : left.Margin) (behind : right.Margin)
    (qualifier : Text.isIdentifier module = true) (identifier : Text.isIdentifier name = true)
    (stands : (left ++ (Statement.stringCall gap module name strings ++ right)).StandsAt source number)
    (plain : Expansion.Plain (Expansion.trimmedLines source))
    (loaded : load source settings loader world = .ok start) (actions : List (Action ω))
    (running : (start.actAll actions).status = .running) (reached : (start.actAll actions).counter = number)
    (resolved : (start.actAll actions).registry.resolve module name = .ok function)
    (admitted : function.arity.Admits strings.length) :
    (start.actAll actions).calls = [⟨module, name, strings.map .str⟩] ∧
    (start.actAll actions).step =
      (start.actAll actions).answered module name (Statement.stringCall gap module name strings)
        (function.call (strings.map .str) (start.actAll actions).world) := by
  have trimmed : Text.trim (left ++ (Statement.stringCall gap module name strings ++ right)) =
      Statement.stringCall gap module name strings :=
    (Text.trimMargins before behind _).trans (Statement.spacedTrimmed gap _)
  have unbroken : '\n' ∉ left ++ (Statement.stringCall gap module name strings ++ right) := by
    simp [before.unbroken, behind.unbroken, Statement.stringCallUnbroken between qualifier identifier]
  have said : Text.trim (left ++ (Statement.stringCall gap module name strings ++ right)) ≠ [] := by
    rw [trimmed]
    exact List.cons_ne_nil _ _
  have here : (start.actAll actions).line? (start.actAll actions).counter =
      some (Statement.stringCall gap module name strings) := by
    rw [reached, lineSame (actAllKeeps start actions).1, loadedLine loaded plain stands unbroken said, trimmed]
  have parsed := Statement.stringCallRead between.blank qualifier identifier strings
  have passing : (start.actAll actions).Passing (Statement.stringCall gap module name strings) module name strings
      function := ⟨running, here, parsed, resolved, admitted⟩
  exact ⟨passing.calls, passing.step⟩

def quotedProgram : Text := "#\r\n\t!program echo: (\"\\\"(\\\\\\n\"), (\" \\t,\"),\r\n#".toList

theorem stringsArriveEscaped : ∃ start, load quotedProgram Settings.default Catalog.empty.load () = .ok start ∧
    (start.actAll [echoing "echo".toList, .step]).calls =
      [⟨"program".toList, "echo".toList, [.str ['"', '(', '\\', '\n'], .str [' ', '\t', ',']]⟩] := by
  have loaded : load quotedProgram Settings.default Catalog.empty.load () =
      .ok (ofLines ["#".toList, "!program echo: (\"\\\"(\\\\\\n\"), (\" \\t,\"),".toList, "#".toList] Registry.initial
        Settings.default ()) := rfl
  refine ⟨_, loaded, ?_⟩
  have gap : Text.Margin [' '] := ⟨List.forall_mem_singleton.mpr (by decide), by decide⟩
  have left : Text.Margin ['\t'] := ⟨List.forall_mem_singleton.mpr (by decide), by decide⟩
  have right : Text.Margin ['\r'] := ⟨List.forall_mem_singleton.mpr (by decide), by decide⟩
  have stands : Text.StandsAt (['\t'] ++ (Statement.stringCall [' '] "program".toList "echo".toList
      [['"', '(', '\\', '\n'], [' ', '\t', ',']] ++ ['\r'])) quotedProgram 2 :=
    ⟨[['#', '\r']], ['\n', '#'], rfl, by decide, .inr ⟨['#'], rfl⟩, rfl⟩
  exact (stringsArrive gap left right (by decide) (by decide) stands (by decide) loaded
    [echoing "echo".toList, .step] (by decide +kernel) (by decide +kernel) rfl (Nat.le_succ 1)).1

end Machine
end Sigil
