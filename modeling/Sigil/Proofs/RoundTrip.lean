import Sigil.Proofs.Statement
import Sigil.Proofs.Written

/-! Statements written and read again. A statement that was read from a line has a form in which writing loses
nothing: read from its written form it is the same statement. -/
namespace Sigil.Statement
open Text (isIdentifier isWordChar isBlank takeIdentifier)

def Formed (value bound : Text → Prop) : Statement → Prop
  | .call site =>
    isIdentifier site.module = true ∧ isIdentifier site.name = true ∧ ∀ arg ∈ site.args, Token.Enclosed arg
  | .assign assignment =>
    isIdentifier assignment.name = true ∧ (∀ flag ∈ assignment.flags, Flag flag) ∧ value assignment.value
  | .openLoop name lower upper => isIdentifier name = true ∧ bound lower ∧ bound upper
  | .loopBack name => isIdentifier name = true
  | .conditional label condition => isIdentifier label = true ∧ condition.Trimmed ∧ condition ≠ []
  | .nothing => True

theorem Formed.mono {value value' bound bound' : Text → Prop} (values : ∀ text, value text → value' text)
    (bounds : ∀ text, bound text → bound' text) {statement : Statement} (formed : statement.Formed value bound) :
    statement.Formed value' bound' := by
  cases statement with
  | call site => exact formed
  | assign assignment => exact ⟨formed.1, formed.2.1, values _ formed.2.2⟩
  | openLoop name lower upper => exact ⟨formed.1, bounds _ formed.2.1, bounds _ formed.2.2⟩
  | loopBack name => exact formed
  | conditional label condition => exact formed
  | nothing => trivial

def Readable (statement : Statement) : Prop := statement.Formed Token.Assigned Token.Bound

theorem expectAppend (fixed rest : Text) : expect fixed (fixed ++ rest) = some rest := by
  induction fixed with
  | nil => rfl
  | cons c fixed ih =>
    change (if c == c then expect fixed (fixed ++ rest) else none) = some rest
    rw [beq_self_eq_true, if_pos rfl, ih]

theorem skipGapVisible {c : Char} (visible : isBlank c = false) (rest : Text) : skipGap (c :: rest) = c :: rest := by
  have other : isGap c = false := by
    cases between : isGap c with
    | false => rfl
    | true =>
      simp only [isGap, Bool.or_eq_true, beq_iff_eq] at between
      rcases between with rfl | rfl <;> revert visible <;> decide
  simp [skipGap, other]

theorem gapVisible {c : Char} (visible : isBlank c = false) (rest : Text) : gap (' ' :: c :: rest) = some (c :: rest) :=
  congrArg some (skipGapVisible visible rest)

theorem identifierStarts {name : Text} (identifier : isIdentifier name = true) :
    ∃ c rest, name = c :: rest ∧ isBlank c = false := by
  obtain ⟨filled, chars⟩ := Text.identifierChars identifier
  obtain ⟨c, rest, rfl⟩ := List.exists_cons_of_ne_nil filled
  exact ⟨c, rest, rfl, Text.wordCharVisible (chars c List.mem_cons_self)⟩

theorem spaceStops (rest : Text) : ∀ c, (' ' :: rest).head? = some c → isWordChar c = false := by
  intro c found
  cases found
  decide

theorem markedNameRender (keyword : Text) {name rest : Text} (identifier : isIdentifier name = true)
    (stop : ∀ c, rest.head? = some c → isWordChar c = false) :
    markedName keyword (keyword ++ ' ' :: '$' :: (name ++ rest)) = some (name, rest) := by
  have dollar : expect ['$'] ('$' :: (name ++ rest)) = some (name ++ rest) := expectAppend ['$'] (name ++ rest)
  simp only [markedName, bind, Option.bind, expectAppend, gapVisible (show isBlank '$' = false by decide), dollar,
    Text.takeIdentifierAppend identifier stop]

theorem callHeadRender {module name : Text} (qualifier : isIdentifier module = true)
    (identifier : isIdentifier name = true) (args : Text) :
    callHead ('!' :: (module ++ ' ' :: (name ++ ':' :: args))) = some (module, name, args) := by
  have sign : expect ['!'] ('!' :: (module ++ ' ' :: (name ++ ':' :: args))) =
      some (module ++ ' ' :: (name ++ ':' :: args)) := expectAppend ['!'] _
  have first : takeIdentifier (module ++ ' ' :: (name ++ ':' :: args)) = some (module, ' ' :: (name ++ ':' :: args)) :=
    Text.takeIdentifierAppend qualifier (spaceStops _)
  have second : takeIdentifier (name ++ ':' :: args) = some (name, ':' :: args) :=
    Text.takeIdentifierAppend identifier fun c found => by cases found; decide
  have unskipped : skipGap (module ++ ' ' :: (name ++ ':' :: args)) = module ++ ' ' :: (name ++ ':' :: args) := by
    obtain ⟨c, rest, rfl, visible⟩ := identifierStarts qualifier
    exact skipGapVisible visible _
  have between : gap (' ' :: (name ++ ':' :: args)) = some (name ++ ':' :: args) := by
    obtain ⟨c, rest, rfl, visible⟩ := identifierStarts identifier
    exact gapVisible visible _
  have early : expect [':'] (' ' :: (name ++ ':' :: args)) = none := rfl
  have colon : expect [':'] (':' :: args) = some args := expectAppend [':'] args
  simp only [callHead, bind, Option.bind, sign, unskipped, first, early, between, second, colon]

theorem typeNameCut (type : ValueType) (rest : Text) :
    (type.name ++ '[' :: rest).takeWhile Char.isAlpha = type.name ∧
      (type.name ++ '[' :: rest).dropWhile Char.isAlpha = '[' :: rest := by
  have letters : type.name.all Char.isAlpha = true := by cases type <;> rfl
  exact Text.takenWhole (List.all_eq_true.mp letters) fun c found => by cases found; rfl

theorem bracketCut {flags : Text} (unclosed : ']' ∉ flags) (rest : Text) :
    (flags ++ ']' :: rest).takeWhile (· != ']') = flags ∧ (flags ++ ']' :: rest).dropWhile (· != ']') = ']' :: rest :=
  Text.takenWhole (fun _ inside => bne_iff_ne.mpr fun same => unclosed (same ▸ inside))
    fun c found => by cases found; rfl

theorem assignmentPartsRender {name flags value : Text} (type : ValueType) (identifier : isIdentifier name = true)
    (unclosed : ']' ∉ flags) (filled : value.trim ≠ []) :
    assignmentParts ('$' :: (name ++ ' ' :: (type.name ++ '[' :: (flags ++ "] = ".toList ++ value)))) =
      some (name, type.name, flags, ' ' :: value) := by
  have ending : flags ++ "] = ".toList ++ value = flags ++ ']' :: (" = ".toList ++ value) := by simp
  rw [ending]
  generalize typed : type.name ++ '[' :: (flags ++ ']' :: (" = ".toList ++ value)) = line
  have sign : expect ['$'] ('$' :: (name ++ ' ' :: line)) = some (name ++ ' ' :: line) := expectAppend ['$'] _
  have named : takeIdentifier (name ++ ' ' :: line) = some (name, ' ' :: line) :=
    Text.takeIdentifierAppend identifier (spaceStops line)
  have between : gap (' ' :: line) = some line := by
    subst typed
    cases type <;> rfl
  obtain ⟨kind, behind⟩ := typeNameCut type (flags ++ ']' :: (" = ".toList ++ value))
  rw [typed] at kind behind
  have opening : expect ['['] ('[' :: (flags ++ ']' :: (" = ".toList ++ value))) =
      some (flags ++ ']' :: (" = ".toList ++ value)) := expectAppend ['['] _
  obtain ⟨listed, closed⟩ := bracketCut unclosed (" = ".toList ++ value)
  have closing : expect [']'] (']' :: (" = ".toList ++ value)) = some (" = ".toList ++ value) := expectAppend [']'] _
  have equals : expect ['='] (skipGap (" = ".toList ++ value)) = some (' ' :: value) := rfl
  have untyped : type.name.isEmpty = false := by cases type <;> rfl
  have said := Text.spacedSaid filled
  simp only [assignmentParts, bind, Option.bind, sign, named, between, kind, behind, opening, listed, closed, closing,
    equals, untyped, said]
  rfl

def spacedCall (gap : Text) (site : Call) : Text :=
  '!' :: (site.module ++ ' ' :: (site.name ++ ':' :: site.args.flatMap fun arg => gap ++ (inParens arg ++ [','])))

theorem spacedTrimmed (gap : Text) (site : Call) : (spacedCall gap site).Trimmed := by
  rcases List.eq_nil_or_concat site.args with empty | ⟨others, last, more⟩
  · have whole : spacedCall gap site = '!' :: ((site.module ++ ' ' :: site.name) ++ [':']) := by
      simp [spacedCall, empty]
    rw [whole]
    exact Text.signTrimmed (by decide) _ (List.cons_ne_nil _ _) (by decide)
  · have whole : spacedCall gap site = '!' :: ((site.module ++ ' ' :: (site.name ++ ':' ::
        ((others.flatMap fun arg => gap ++ (inParens arg ++ [','])) ++ (gap ++ inParens last)))) ++ [',']) := by
      simp [spacedCall, more]
    rw [whole]
    exact Text.signTrimmed (by decide) _ (List.cons_ne_nil _ _) (by decide)

theorem renderTrimmed {statement : Statement} (readable : statement.Readable) : (render statement).Trimmed := by
  cases statement with
  | call site => exact spacedTrimmed [' '] site
  | assign assignment =>
    obtain ⟨_, filled, trimmed⟩ := Token.renderAssigned readable.2.2
    have behind := Text.signTrimmed (show isBlank '$' = false by decide) (assignment.name ++ ' ' ::
      (assignment.type.name ++ '[' :: (renderFlags assignment.flags ++ "] = ".toList))) filled trimmed.ends
    simp only [List.append_assoc, List.cons_append] at behind
    rw [← List.append_assoc (renderFlags assignment.flags)] at behind
    exact behind
  | openLoop name lower upper =>
    have single := (Token.renderBound readable.2.2).1
    have behind := Text.signTrimmed (show isBlank '@' = false by decide)
      ("n $".toList ++ name ++ ' ' :: (renderValue lower ++ [' '])) single.filled single.ends
    simp only [List.append_assoc, List.cons_append, List.nil_append] at behind
    rw [← List.append_assoc] at behind
    exact behind
  | loopBack name =>
    exact Text.signTrimmed (by decide) "b $".toList (Text.identifierChars readable).1 (Text.identifierEnds readable)
  | conditional label condition =>
    obtain ⟨_, trimmed, filled⟩ := readable
    exact Text.signTrimmed (by decide) ("if $".toList ++ label ++ " | ".toList) filled trimmed.ends
  | nothing => rfl

theorem spacedRead {gap : Text} (blank : ∀ c ∈ gap, isBlank c = true) {site : Call}
    (readable : (Statement.call site).Readable) : parseCall (spacedCall gap site) = .ok site := by
  have trimmed : (spacedCall gap site).trim = spacedCall gap site := spacedTrimmed gap site
  obtain ⟨qualifier, identifier, enclosed⟩ := readable
  have head := callHeadRender qualifier identifier (site.args.flatMap fun arg => gap ++ (inParens arg ++ [',']))
  rw [← spacedCall, ← trimmed] at head
  simp only [parseCall, head, Token.renderArguments blank enclosed]
  rfl

theorem renderAssignmentRead {assignment : Assignment} (readable : (Statement.assign assignment).Readable) :
    parseAssignment (render (.assign assignment)) = .ok (.assign assignment) := by
  obtain ⟨identifier, flags, assigned⟩ := readable
  obtain ⟨read, filled, trimmed⟩ := Token.renderAssigned assigned
  have said : (renderValue assignment.value).trim ≠ [] := trimmed.symm ▸ filled
  have parts := assignmentPartsRender assignment.type identifier (renderFlagsUnclosed flags) said
  have type := ValueType.ofNameIff.mpr (Eq.refl assignment.type.name)
  have split : assignmentParts (render (.assign assignment)) = some (assignment.name, assignment.type.name,
      renderFlags assignment.flags, ' ' :: renderValue assignment.value) := parts
  simp only [parseAssignment, split, type, read, flagListRender flags]
  rfl

theorem renderLoopRead {name lower upper : Text} (readable : (openLoop name lower upper).Readable) :
    parseLoop (render (.openLoop name lower upper)) = .ok (.openLoop name lower upper) := by
  obtain ⟨identifier, low, high⟩ := readable
  obtain ⟨first, lowRead⟩ := Token.renderBound low
  obtain ⟨second, highRead⟩ := Token.renderBound high
  have head : markedName "@n".toList (render (.openLoop name lower upper)) =
      some (name, ' ' :: (renderValue lower ++ ' ' :: renderValue upper)) := by
    change markedName "@n".toList ("@n $".toList ++ name ++ ' ' :: (renderValue lower ++ ' ' :: renderValue upper)) = _
    rw [List.append_assoc]
    exact markedNameRender "@n".toList identifier (spaceStops (renderValue lower ++ ' ' :: renderValue upper))
  simp only [parseLoop, head, Token.operandsPair first second, lowRead, highRead]

theorem renderBackRead {name : Text} (identifier : isIdentifier name = true) :
    parseLoop (render (.loopBack name)) = .ok (.loopBack name) := by
  have head : markedName "@b".toList (render (.loopBack name)) = some (name, []) := by
    have marked := markedNameRender "@b".toList identifier fun c (found : [].head? = some c) => nomatch found
    rwa [List.append_nil] at marked
  have other : markedName "@n".toList (render (.loopBack name)) = none := rfl
  simp only [parseLoop, head, other]
  rfl

theorem renderConditionalRead {label condition : Text} (readable : (conditional label condition).Readable) :
    parseConditional (render (.conditional label condition)) = .ok (.conditional label condition) := by
  have trimmed : (render (.conditional label condition)).trim = render (.conditional label condition) :=
    renderTrimmed readable
  obtain ⟨identifier, tight, filled⟩ := readable
  have head : markedName "?if".toList (render (.conditional label condition)) =
      some (label, " | ".toList ++ condition) := by
    change markedName "?if".toList ("?if $".toList ++ label ++ " | ".toList ++ condition) = _
    rw [List.append_assoc, List.append_assoc]
    exact markedNameRender "?if".toList identifier (spaceStops ("| ".toList ++ condition))
  have bar : expect ['|'] (skipGap (" | ".toList ++ condition)) = some (' ' :: condition) := rfl
  have whole : Text.trim (' ' :: condition) = condition := (Text.trimBlank (by decide) condition).trans tight
  have said := Text.spacedSaid (tight.symm ▸ filled)
  have parts : conditionalParts (render (.conditional label condition)) = some (label, condition) := by
    simp only [conditionalParts, bind, Option.bind, head, bar, said, whole]
    rfl
  have unended : endLabel (render (.conditional label condition)) = none := by
    rw [endLabel, trimmed]
    rfl
  simp only [parseConditional, unended, parts]
  rfl

theorem renderRead {statement : Statement} (readable : statement.Readable) :
    parse (render statement) = .ok statement := by
  have trimmed : (render statement).trim = render statement := renderTrimmed readable
  unfold parse
  rw [trimmed]
  cases statement with
  | call site =>
    have blank : ∀ c ∈ [' '], isBlank c = true := List.forall_mem_singleton.mpr (by decide)
    exact congrArg (Except.map Statement.call) (spacedRead blank readable)
  | assign assignment => exact renderAssignmentRead readable
  | openLoop name lower upper => exact renderLoopRead readable
  | loopBack name => exact renderBackRead readable
  | conditional label condition => exact renderConditionalRead readable
  | nothing => rfl

theorem callHeadNames {text module name args : Text} (h : callHead text = some (module, name, args)) :
    isIdentifier module = true ∧ isIdentifier name = true := by
  simp only [callHead, bind, Option.bind_eq_some_iff] at h
  obtain ⟨_, _, ⟨first, after⟩, taken, h⟩ := h
  have named := (Text.takeIdentifierSplit taken).2
  split at h
  · cases h
    exact ⟨by decide, named⟩
  · simp only [Option.bind_eq_some_iff] at h
    obtain ⟨_, _, ⟨second, tail⟩, again, _, _, same⟩ := h
    cases same
    exact ⟨named, (Text.takeIdentifierSplit again).2⟩

theorem callReadable {text : Text} {site : Call} (h : parseCall text = .ok site) :
    (Statement.call site).Readable := by
  unfold parseCall at h
  split at h
  · rename_i module name raw head
    obtain ⟨args, read, same⟩ := mapOk h
    cases same
    obtain ⟨qualifier, identifier⟩ := callHeadNames head
    exact ⟨qualifier, identifier, Token.argumentsEnclosed read⟩
  · split at h <;> simp at h

theorem assignmentPartsForm {line name type flags value : Text}
    (h : assignmentParts line = some (name, type, flags, value)) : ']' ∉ flags ∧ value.trim ≠ [] := by
  simp only [assignmentParts, bind, Option.bind_eq_some_iff] at h
  obtain ⟨_, _, _, _, _, _, listed, _, _, _, raw, _, last⟩ := h
  split at last
  · simp at last
  · rename_i said
    simp only [Bool.or_eq_true, not_or, Text.blankTextIff] at said
    cases last
    refine ⟨fun member => ?_, said.2⟩
    have inside := List.mem_takeWhile_imp member
    simp at inside

theorem assignmentReadable {line : Text} {statement : Statement} (h : parseAssignment line = .ok statement) :
    statement.Readable := by
  unfold parseAssignment at h
  split at h
  · simp at h
  · rename_i parts
    split at h
    · simp at h
    · obtain ⟨value, read, rfl⟩ := mapOk h
      obtain ⟨unclosed, filled⟩ := assignmentPartsForm parts
      exact ⟨assignmentPartsIdentifier parts, flagListFlags unclosed, Token.assignmentCases filled read⟩

theorem loopReadable {line : Text} {statement : Statement} (h : parseLoop line = .ok statement) :
    statement.Readable := by
  unfold parseLoop at h
  split at h
  · rename_i opened
    split at h <;> simp at h
    rename_i lower upper read
    have single := Token.operandsSingle read
    subst h
    exact ⟨markedNameIdentifier opened, Token.unwrapBound (single lower (by simp)),
      Token.unwrapBound (single upper (by simp))⟩
  · split at h
    · rename_i closed
      split at h <;> simp at h
      subst h
      exact markedNameIdentifier closed
    · simp at h

theorem conditionalReadable {line : Text} {statement : Statement} (h : parseConditional line = .ok statement) :
    statement.Readable := by
  unfold parseConditional at h
  split at h
  · cases h
    trivial
  · split at h <;> simp at h
    rename_i parts
    subst h
    simp only [conditionalParts, bind, Option.bind_eq_some_iff] at parts
    obtain ⟨⟨label, rest⟩, marked, condition, _, last⟩ := parts
    split at last
    · simp at last
    · rename_i said
      cases last
      exact ⟨markedNameIdentifier marked, Text.trimTrimmed condition, mt Text.blankTextIff.mpr said⟩

theorem parseReadable {line : Text} {statement : Statement} (h : parse line = .ok statement) :
    statement.Readable := by
  unfold parse at h
  split at h
  · cases h
    trivial
  · split at h
    · cases h
      trivial
    · split at h
      · obtain ⟨site, read, rfl⟩ := mapOk h
        exact callReadable read
      · split at h
        · exact assignmentReadable h
        · split at h
          · exact loopReadable h
          · split at h
            · exact conditionalReadable h
            · simp at h

/- The second part reaches further than the first: a line can also hold values and bounds that are not balanced,
and a statement read from such a line comes back as well. -/
theorem parseRender :
    (∀ statement : Statement, statement.Formed Token.Enclosed Token.Enclosed →
      parse (render statement) = .ok statement) ∧
    ∀ (text : Text) (statement : Statement), parse text = .ok statement → parse (render statement) = .ok statement := by
  constructor
  · intro statement formed
    exact renderRead (formed.mono (fun _ => .enclosed) fun _ => .enclosed)
  · intro text statement h
    exact renderRead (parseReadable h)

theorem parseRenderNested :
    parse (render (.assign ⟨"x".toList, .string, ["a b".toList], "(\")\") (1)".toList⟩)) =
      .ok (.assign ⟨"x".toList, .string, ["a b".toList], "(\")\") (1)".toList⟩) ∧
    parse " @n\t$i (a)(b) x)y ".toList = .ok (.openLoop "i".toList "(a)(b)".toList "x)y".toList) ∧
    parse (render (.openLoop "i".toList "(a)(b)".toList "x)y".toList)) =
      .ok (.openLoop "i".toList "(a)(b)".toList "x)y".toList) := by
  have flag : Flag "a b".toList := ⟨rfl, by decide, by decide, by decide⟩
  have value : Token.Enclosed "(\")\") (1)".toList := ⟨rfl, Token.isBalancedIff.mp (by decide)⟩
  have loop : parse " @n\t$i (a)(b) x)y ".toList = .ok (.openLoop "i".toList "(a)(b)".toList "x)y".toList) := by
    have sign : parse " @n\t$i (a)(b) x)y ".toList = parseLoop "@n\t$i (a)(b) x)y".toList := rfl
    have head : markedName "@n".toList "@n\t$i (a)(b) x)y".toList = some ("i".toList, " (a)(b) x)y".toList) := rfl
    have first : Token.Single "(a)(b)".toList := ⟨by decide, rfl⟩
    have second : Token.Single "x)y".toList := ⟨by decide, rfl⟩
    have words : Token.operands " (a)(b) x)y".toList = .ok ["(a)(b)".toList, "x)y".toList] :=
      Token.operandsPair first second
    simp only [sign, parseLoop, head, words]
    rfl
  exact ⟨parseRender.1 _ ⟨by decide, by simpa using flag, value⟩, loop, parseRender.2 _ _ loop⟩

end Sigil.Statement
