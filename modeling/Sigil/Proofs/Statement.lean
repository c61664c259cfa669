import Sigil.Statement.Parser

/-! What is known of a statement because it was read from a line. -/
namespace Sigil.Statement

def target? : Statement → Option Text
  | .assign assignment => some assignment.name
  | .openLoop name _ _ => some name
  | .loopBack name => some name
  | _ => none

def assigned? : Statement → Option Text
  | .assign assignment => some assignment.name
  | _ => none

def loop? : Statement → Option Text
  | .openLoop name _ _ => some name
  | .loopBack name => some name
  | _ => none

theorem markedNameIdentifier {keyword text name rest : Text}
    (h : markedName keyword text = some (name, rest)) : Text.isIdentifier name = true := by
  simp only [markedName, bind, Option.bind_eq_some_iff] at h
  obtain ⟨_, _, _, _, _, _, taken⟩ := h
  exact (Text.takeIdentifierSplit taken).2

theorem assignmentPartsIdentifier {line name type flags value : Text}
    (h : assignmentParts line = some (name, type, flags, value)) : Text.isIdentifier name = true := by
  simp only [assignmentParts, bind, Option.bind_eq_some_iff] at h
  obtain ⟨_, _, ⟨taken, _⟩, named, _, _, _, _, _, _, _, _, last⟩ := h
  split at last
  · simp at last
  · simp only [Option.some.injEq, Prod.mk.injEq] at last
    rw [← last.1]
    exact (Text.takeIdentifierSplit named).2

theorem assignmentRead {line : Text} {statement : Statement} (h : parseAssignment line = .ok statement) :
    ∃ assignment, statement = .assign assignment ∧ Text.isIdentifier assignment.name = true := by
  unfold parseAssignment at h
  split at h
  · simp at h
  · rename_i parts
    split at h
    · simp at h
    · obtain ⟨value, _, rfl⟩ := mapOk h
      exact ⟨_, rfl, assignmentPartsIdentifier parts⟩

theorem loopRead {line : Text} {statement : Statement} (h : parseLoop line = .ok statement) :
    (∃ name lower upper rest, statement = .openLoop name lower upper ∧
      markedName "@n".toList line = some (name, rest)) ∨
    ∃ name rest, statement = .loopBack name ∧ markedName "@b".toList line = some (name, rest) := by
  unfold parseLoop at h
  split at h
  · rename_i opened
    split at h <;> simp at h
    exact .inl ⟨_, _, _, _, h.symm, opened⟩
  · split at h
    · rename_i closed
      split at h <;> simp at h
      exact .inr ⟨_, _, h.symm, closed⟩
    · simp at h

theorem conditionalRead {line : Text} {statement : Statement} (h : parseConditional line = .ok statement) :
    statement = .nothing ∨ ∃ label condition, statement = .conditional label condition := by
  unfold parseConditional at h
  split at h
  · cases h
    exact .inl rfl
  · split at h <;> simp at h
    exact .inr ⟨_, _, h.symm⟩

theorem parsed {line : Text} {statement : Statement} (h : parse line = .ok statement) :
    statement = .nothing ∨ (∃ call, statement = .call call) ∨ parseAssignment line.trim = .ok statement ∨
      parseLoop line.trim = .ok statement ∨ ∃ label condition, statement = .conditional label condition := by
  unfold parse at h
  split at h
  · cases h
    exact .inl rfl
  · rename_i c rest trimmed
    rw [trimmed]
    split at h
    · cases h
      exact .inl rfl
    · split at h
      · obtain ⟨call, _, rfl⟩ := mapOk h
        exact .inr (.inl ⟨call, rfl⟩)
      · split at h
        · exact .inr (.inr (.inl h))
        · split at h
          · exact .inr (.inr (.inr (.inl h)))
          · split at h
            · rcases conditionalRead h with same | found
              · exact .inl same
              · exact .inr (.inr (.inr (.inr found)))
            · simp at h

theorem targetIdentifier {line name : Text} {statement : Statement} (h : parse line = .ok statement)
    (target : statement.target? = some name) : Text.isIdentifier name = true := by
  rcases parsed h with rfl | ⟨call, rfl⟩ | assigns | loops | ⟨label, condition, rfl⟩
  · simp [target?] at target
  · simp [target?] at target
  · obtain ⟨assignment, rfl, identifier⟩ := assignmentRead assigns
    cases target
    exact identifier
  · rcases loopRead loops with ⟨_, _, _, _, rfl, opened⟩ | ⟨_, _, rfl, closed⟩
    · cases target
      exact markedNameIdentifier opened
    · cases target
      exact markedNameIdentifier closed
  · simp [target?] at target

theorem openLength {line name lower upper : Text} (h : parse line = .ok (.openLoop name lower upper)) :
    2 ≤ line.length := by
  have shorter := Text.trimLength line
  rcases parsed h with none | ⟨call, other⟩ | assigns | loops | ⟨label, condition, other⟩
  · simp at none
  · simp at other
  · obtain ⟨_, other, _⟩ := assignmentRead assigns
    simp at other
  · rcases loopRead loops with ⟨_, _, _, _, _, opened⟩ | ⟨_, _, other, _⟩
    · simp only [markedName, bind, Option.bind_eq_some_iff] at opened
      obtain ⟨after, keyword, _⟩ := opened
      have whole := congrArg List.length (expectSplit keyword)
      have two : "@n".toList.length = 2 := rfl
      simp only [List.length_append, two] at whole
      omega
    · simp at other
  · simp at other

theorem conditionNotIdentifier : Text.isIdentifier ['?'] = false := by decide

end Sigil.Statement
