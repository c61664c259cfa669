import Sigil.Proofs.Registry
import Sigil.Proofs.Substitution

/-! Directives that cannot be followed. What a directive demands is read off its text: the sign, a word, and what
stands behind it. The first line that cannot be followed ends the expansion and no other line does; by then the modules
of the lines before it are included, and nothing else is. -/
namespace Sigil

namespace Directive

inductive Directs : Text → Text → Text → Prop where
  | word {gap keyword behind : Text} (blank : ∀ c ∈ gap, Text.isBlank c = true)
      (visible : ∀ c ∈ keyword, Text.isBlank c = false) (stops : Token.Stops behind)
      (alone : keyword = [] → behind = []) : Directs ('+' :: (gap ++ (keyword ++ behind))) keyword behind.trim

theorem wordMissing (text : Text) : (splitWord text).1 = [] ↔ text.trimStart = [] := by
  simp only [splitWord]
  cases start : text.trimStart with
  | nil => simp
  | cons c rest => simp [Text.trimStartBlankFree start]

theorem directsSplit (directive : Text) :
    Directs ('+' :: directive) (splitWord directive).1 (splitWord directive).2 := by
  have parts : directive = directive.takeWhile Text.isBlank ++
      ((splitWord directive).1 ++ directive.trimStart.dropWhile fun c => !Text.isBlank c) := by
    simp only [splitWord, List.takeWhile_append_dropWhile, Text.trimStart]
  have directs : Directs ('+' :: (directive.takeWhile Text.isBlank ++
      ((splitWord directive).1 ++ directive.trimStart.dropWhile fun c => !Text.isBlank c)))
      (splitWord directive).1 (Text.trim (directive.trimStart.dropWhile fun c => !Text.isBlank c)) := by
    refine .word (fun c member => List.mem_takeWhile_imp member) (splitWordInside rfl).1 (fun c found => ?_) ?_
    · have stopped := List.head?_dropWhile_not (fun c => !Text.isBlank c) directive.trimStart
      rw [found] at stopped
      simpa using stopped
    · intro missing
      rw [(wordMissing directive).mp missing]
      rfl
  rwa [← parts] at directs

theorem Directs.split {directive keyword rest : Text} (directs : Directs ('+' :: directive) keyword rest) :
    splitWord directive = (keyword, rest) := by
  obtain ⟨blank, visible, stops, alone⟩ := directs
  rename_i gap behind
  have start : Text.trimStart (gap ++ (keyword ++ behind)) = keyword ++ behind := by
    rw [Text.trimStart, List.dropWhile_append_of_pos blank]
    cases keyword with
    | nil => rw [alone rfl]; rfl
    | cons c tail => simp [visible c List.mem_cons_self]
  have shown : ∀ c ∈ keyword, (!Text.isBlank c) = true := fun c member => by simp [visible c member]
  have ends : ∀ c, behind.head? = some c → (!Text.isBlank c) = false := fun c found => by simp [stops c found]
  obtain ⟨taken, left⟩ := Text.takenWhole shown ends
  simp only [splitWord, start, taken, left]

theorem Directs.signed {line keyword rest : Text} (directs : Directs line keyword rest) :
    ∃ directive, line = '+' :: directive ∧ splitWord directive = (keyword, rest) := by
  have same : ∃ directive, line = '+' :: directive := by
    cases directs
    exact ⟨_, rfl⟩
  obtain ⟨directive, rfl⟩ := same
  exact ⟨directive, rfl, directs.split⟩

theorem Directs.trimmed {line keyword rest : Text} (directs : Directs line keyword rest) : rest.Trimmed := by
  cases directs
  exact Text.trimTrimmed _

def Includes (line module : Text) : Prop :=
  Directs line "include".toList module ∧ Text.isIdentifier module = true

inductive Wrong {ω : Type} (catalog : Catalog ω) (line : Text) : Fault → Prop where
  | keyword {keyword rest : Text} (directs : Directs line keyword rest) (noInclude : keyword ≠ "include".toList)
      (noReplace : keyword ≠ "replace".toList) : Wrong catalog line (.malformed (.unknownDirective keyword))
  | name {rest : Text} (directs : Directs line "include".toList rest) (unnamed : Text.isIdentifier rest = false) :
      Wrong catalog line (.malformed (.includeMalformed line))
  | module {module : Text} (includes : Includes line module) (absent : catalog.get? module = none) :
      Wrong catalog line (.moduleNotFound module)
  | needle (directs : Directs line "replace".toList []) : Wrong catalog line (.malformed (.replaceMalformed line))

def Bad {ω : Type} (catalog : Catalog ω) (line : Text) : Prop := ∃ fault, Wrong catalog line fault

def module? (line : Text) : Option Text :=
  match ofLine? line with
  | some (.ok (.load module)) => some module
  | _ => none

variable {ω : Type} {catalog : Catalog ω} {line : Text}

theorem Directs.read {keyword rest : Text} (directs : Directs line keyword rest) : ofLine? line = some (
    if keyword = "include".toList then
      if Text.isIdentifier rest then .ok (.load rest) else .error (.includeMalformed line)
    else if keyword = "replace".toList then
      if rest = [] then .error (.replaceMalformed line)
      else .ok (.substitute ⟨(splitWord rest).1, (splitWord rest).2⟩)
    else .error (.unknownDirective keyword)) := by
  have missing : (splitWord rest).1.isEmpty = true ↔ rest = [] := by
    rw [List.isEmpty_iff, wordMissing, directs.trimmed.start]
  obtain ⟨directive, rfl, split⟩ := directs.signed
  simp only [ofLine?, parse, split, missing]

theorem readDirects {found : Except SyntaxFault Directive} (read : ofLine? line = some found) :
    ∃ keyword rest, Directs line keyword rest := by
  unfold ofLine? at read
  split at read
  · rename_i directive
    exact ⟨_, _, directsSplit directive⟩
  · simp at read

theorem loadIff {module : Text} : ofLine? line = some (.ok (.load module)) ↔ Includes line module := by
  constructor
  · intro read
    obtain ⟨keyword, rest, directs⟩ := readDirects read
    rw [directs.read, Option.some.injEq] at read
    split at read
    · rename_i named
      split at read
      · rename_i identifier
        cases read
        exact ⟨named ▸ directs, identifier⟩
      · simp at read
    · split at read
      · split at read <;> simp at read
      · simp at read
  · rintro ⟨directs, identifier⟩
    rw [directs.read, if_pos rfl, if_pos identifier]

theorem refusedIff {cause : SyntaxFault} :
    ofLine? line = some (.error cause) ↔ Wrong catalog line (.malformed cause) := by
  constructor
  · intro read
    obtain ⟨keyword, rest, directs⟩ := readDirects read
    rw [directs.read, Option.some.injEq] at read
    split at read
    · rename_i named
      split at read
      · simp at read
      · rename_i unnamed
        cases read
        exact .name (named ▸ directs) (by simpa using unnamed)
    · rename_i noInclude
      split at read
      · rename_i named
        split at read
        · rename_i missing
          cases read
          exact .needle (missing ▸ named ▸ directs)
        · simp at read
      · rename_i noReplace
        cases read
        exact .keyword directs noInclude noReplace
  · intro wrong
    cases wrong with
    | keyword directs noInclude noReplace => rw [directs.read, if_neg noInclude, if_neg noReplace]
    | name directs unnamed =>
      rw [directs.read, if_pos rfl, unnamed]
      rfl
    | needle directs =>
      rw [directs.read]
      rfl

def Absent (catalog : Catalog ω) (line : Text) : Prop := ∃ module, Includes line module ∧ catalog.get? module = none

theorem Wrong.causes {fault : Fault} (wrong : Wrong catalog line fault) :
    (∃ cause, fault = .malformed cause ∧ cause.atLineEnd = false) ∨
      ∃ module, fault = .moduleNotFound module ∧ Includes line module ∧ catalog.get? module = none := by
  cases wrong with
  | keyword => exact .inl ⟨_, rfl, rfl⟩
  | name => exact .inl ⟨_, rfl, rfl⟩
  | needle => exact .inl ⟨_, rfl, rfl⟩
  | module includes absent => exact .inr ⟨_, rfl, includes, absent⟩

theorem Wrong.kind {fault : Fault} (wrong : Wrong catalog line fault) :
    (Absent catalog line → fault.kind = .moduleNotFound) ∧ (¬Absent catalog line → fault.kind = .syntaxError) := by
  rcases wrong.causes with ⟨cause, rfl, inside⟩ | ⟨module, rfl, includes, absent⟩
  · refine ⟨fun absent => ?_, fun _ => ?_⟩
    · obtain ⟨_, includes, _⟩ := absent
      have read := refusedIff.mpr wrong
      rw [loadIff.mpr includes] at read
      simp at read
    · rw [Fault.kind, inside]
      rfl
  · exact ⟨fun _ => rfl, fun known => absurd ⟨module, includes, absent⟩ known⟩

theorem badIff : Bad catalog line ↔ (match ofLine? line with
    | some (.error _) => true
    | some (.ok (.load module)) => !catalog.contains module
    | _ => false) = true := by
  constructor
  · rintro ⟨fault, wrong⟩
    rcases wrong.causes with ⟨cause, rfl, _⟩ | ⟨module, rfl, includes, absent⟩
    · simp only [refusedIff.mpr wrong]
    · simp [loadIff.mpr includes, Table.contains, absent]
  · intro found
    split at found
    · rename_i cause read
      exact ⟨_, refusedIff.mp read⟩
    · rename_i module read
      exact ⟨_, .module (loadIff.mp read) (by simpa [Table.contains] using found)⟩
    · simp at found

instance (catalog : Catalog ω) (line : Text) : Decidable (Bad catalog line) := decidable_of_iff _ badIff.symm

theorem moduleIff {module : Text} : module? line = some module ↔ Includes line module := by
  rw [← loadIff]
  unfold module?
  split
  · rename_i read
    rw [read]
    simp
  · rename_i other
    exact iff_of_false (by simp) (other module)

end Directive

namespace Expansion
open Directive (Bad Wrong Absent Includes)
variable {ω : Type} {catalog : Catalog ω} {registry : Registry ω} {line : Text}

def included (catalog : Catalog ω) (registry : Registry ω) (lines : List Text) : Registry ω :=
  registry.performAll catalog ((lines.filterMap Directive.module?).map .load)

theorem includedAppend (registry : Registry ω) (before behind : List Text) :
    included catalog registry (before ++ behind) = included catalog (included catalog registry before) behind := by
  simp [included, Registry.performAll, List.foldl_append]

theorem includedNothing (none : Directive.module? line = none) (catalog : Catalog ω) (registry : Registry ω) :
    included catalog registry [line] = registry := by
  rw [included, List.filterMap_cons, none]
  rfl

theorem includedOne {module : Text} (found : Directive.module? line = some module) (catalog : Catalog ω)
    (registry : Registry ω) : included catalog registry [line] = (registry.includeModule catalog.load module).2 := by
  rw [included, List.filterMap_cons, found]
  rfl

theorem gatherWrong (founded : Registry.Founded catalog registry) {fault : Fault} (wrong : Wrong catalog line fault)
    (number : Nat) (more : List Text) (rules : List Rule) :
    gather catalog.load number (line :: more) registry rules =
      (.error ⟨fault, number, line, .preprocessing⟩, registry) := by
  rcases wrong.causes with ⟨cause, rfl, _⟩ | ⟨module, rfl, includes, absent⟩
  · simp only [gather, Directive.refusedIff.mpr wrong]
  · have refused : registry.includeModule catalog.load module = (.error (.moduleNotFound module), registry) := by
      refine Prod.ext ?_ (founded.includeRefused absent)
      rw [Registry.includeAnswer, Table.contains, absent]
      rfl
    simp only [gather, Directive.loadIff.mpr includes, refused]

/- The rules kept do not depend on the lines behind, so that a run can be cut at any line. -/
theorem gatherGood (good : ¬Bad catalog line) (number : Nat) (registry : Registry ω) (rules : List Rule) :
    ∃ kept, ∀ more, gather catalog.load number (line :: more) registry rules =
      gather catalog.load (number + 1) more (included catalog registry [line]) kept := by
  cases read : Directive.ofLine? line with
  | none =>
    have none : Directive.module? line = none := by simp only [Directive.module?, read]
    have stays := includedNothing none catalog registry
    exact ⟨rules, fun more => by simp only [gather, read, stays]⟩
  | some found =>
    cases found with
    | error cause => exact absurd ⟨_, Directive.refusedIff.mp read⟩ good
    | ok directive =>
      cases directive with
      | substitute rule =>
        have none : Directive.module? line = none := by simp only [Directive.module?, read]
        have stays := includedNothing none catalog registry
        exact ⟨rule.record rules, fun more => by simp only [gather, read, stays]⟩
      | load module =>
        have includes := Directive.loadIff.mp read
        have one := includedOne (Directive.moduleIff.mpr includes) catalog registry
        rcases Registry.includeCases registry catalog module with ⟨added, _, loaded⟩ | ⟨absent, _⟩
        · exact ⟨rules, fun more => by simp only [gather, read, one, loaded]⟩
        · exact absurd ⟨_, .module includes absent⟩ good

theorem gatherClean {before : List Text} (clean : ∀ line ∈ before, ¬Bad catalog line) (number : Nat)
    (registry : Registry ω) (rules : List Rule) :
    ∃ kept, ∀ more, gather catalog.load number (before ++ more) registry rules =
      gather catalog.load (number + before.length) more (included catalog registry before) kept := by
  induction before generalizing number registry rules with
  | nil => exact ⟨rules, fun more => rfl⟩
  | cons line before ih =>
    obtain ⟨first, step⟩ := gatherGood (clean line List.mem_cons_self) number registry rules
    obtain ⟨kept, later⟩ := ih (fun other member => clean other (List.mem_cons_of_mem line member)) (number + 1)
      (included catalog registry [line]) first
    refine ⟨kept, fun more => ?_⟩
    have place : number + (line :: before).length = number + 1 + before.length := by
      simp only [List.length_cons]
      omega
    rw [List.cons_append, step, later, place, ← includedAppend, List.singleton_append]

theorem expandClean {source : Text} (clean : ∀ line ∈ trimmedLines source, ¬Bad catalog line) (registry : Registry ω) :
    ∃ program,
      expand catalog.load registry source = (.ok program, included catalog registry (trimmedLines source)) := by
  obtain ⟨kept, through⟩ := gatherClean clean 1 registry []
  have whole := through []
  rw [List.append_nil, gather] at whole
  unfold expand
  rw [whole]
  exact ⟨_, rfl⟩

theorem expandWrong (founded : ∀ lines, Registry.Founded catalog (included catalog registry lines)) {source : Text}
    {before behind : List Text} (split : trimmedLines source = before ++ line :: behind)
    (clean : ∀ earlier ∈ before, ¬Bad catalog earlier) {fault : Fault} (wrong : Wrong catalog line fault) :
    expand catalog.load registry source =
      (.error ⟨fault, before.length + 1, line, .preprocessing⟩, included catalog registry before) := by
  obtain ⟨kept, through⟩ := gatherClean clean 1 registry []
  have stopped := through (line :: behind)
  rw [← split, gatherWrong (founded before) wrong, Nat.add_comm] at stopped
  unfold expand
  rw [stopped]

theorem firstBad {lines : List Text} (bad : ∃ line ∈ lines, Bad catalog line) :
    ∃ before line behind, lines = before ++ line :: behind ∧ (∀ earlier ∈ before, ¬Bad catalog earlier) ∧
      Bad catalog line := by
  obtain ⟨line, member, wrong⟩ := bad
  have found : (lines.find? fun line => decide (Bad catalog line)).isSome = true :=
    List.find?_isSome.mpr ⟨line, member, decide_eq_true wrong⟩
  obtain ⟨first, search⟩ := Option.isSome_iff_exists.mp found
  obtain ⟨worst, before, behind, split, clean⟩ := List.find?_eq_some_iff_append.mp search
  exact ⟨before, first, behind, split, by simpa using clean, by simpa using worst⟩

theorem refusesFirst (catalog : Catalog ω) (operations : List (Registry.Operation ω)) (registry : Registry ω)
    (reached : Registry.initial.performAll catalog operations = registry) (source : Text) :
    (∀ line module, Directive.module? line = some module ↔ Includes line module) ∧
    ((∃ report, (expand catalog.load registry source).1 = .error report) ↔
      ∃ line ∈ trimmedLines source, Bad catalog line) ∧
    (∀ before line behind fault, trimmedLines source = before ++ line :: behind →
      (∀ earlier ∈ before, ¬Bad catalog earlier) → Wrong catalog line fault →
      expand catalog.load registry source =
        (.error ⟨fault, before.length + 1, line, .preprocessing⟩, included catalog registry before) ∧
      (Absent catalog line → fault.kind = .moduleNotFound) ∧ (¬Absent catalog line → fault.kind = .syntaxError)) ∧
    ((∀ line ∈ trimmedLines source, ¬Bad catalog line) →
      ∃ program,
        expand catalog.load registry source = (.ok program, included catalog registry (trimmedLines source))) := by
  subst reached
  have founded (lines : List Text) :
      Registry.Founded catalog (included catalog (Registry.initial.performAll catalog operations) lines) :=
    Registry.performAllFounded (Registry.performAllFounded Registry.initialFounded operations) _
  refine ⟨fun _ _ => Directive.moduleIff, ⟨fun failed => ?_, fun bad => ?_⟩, ?_, fun clean => expandClean clean _⟩
  · obtain ⟨report, failed⟩ := failed
    by_contra clean
    obtain ⟨program, went⟩ := expandClean (fun line member bad => clean ⟨line, member, bad⟩)
      (Registry.initial.performAll catalog operations)
    simp [went] at failed
  · obtain ⟨before, line, behind, split, clean, fault, wrong⟩ := firstBad bad
    exact ⟨_, congrArg Prod.fst (expandWrong founded split clean wrong)⟩
  · intro before line behind fault split clean wrong
    exact ⟨expandWrong founded split clean wrong, wrong.kind⟩

theorem refusesFirstAbsent : ∃ registry after : Registry Unit,
    Registry.initial.performAll Registry.bareCatalog [.register ['m'] ['a'] (Registry.constant 2)] = registry ∧
    Wrong Registry.bareCatalog "+include z".toList (.moduleNotFound ['z']) ∧
    expand Registry.bareCatalog.load registry "+  include m\n +replace a \r\n +include z\n+bogus".toList =
      (.error ⟨.moduleNotFound ['z'], 3, "+include z".toList, .preprocessing⟩, after) ∧
    after.function? ['m'] ['a'] = some (Registry.constant 1) := by
  have includes : Includes "+include z".toList ['z'] := Directive.loadIff.mp rfl
  have wrong : Wrong Registry.bareCatalog "+include z".toList (.moduleNotFound ['z']) := .module includes rfl
  have clean : ∀ earlier ∈ ["+  include m".toList, "+replace a".toList], ¬Bad Registry.bareCatalog earlier := by
    decide +kernel
  obtain ⟨_, _, first, _⟩ := refusesFirst Registry.bareCatalog [.register ['m'] ['a'] (Registry.constant 2)] _ rfl
    "+  include m\n +replace a \r\n +include z\n+bogus".toList
  obtain ⟨refused, _⟩ := first ["+  include m".toList, "+replace a".toList] "+include z".toList ["+bogus".toList] _
    (by decide +kernel) clean wrong
  exact ⟨_, _, rfl, wrong, refused, rfl⟩

end Expansion
end Sigil
