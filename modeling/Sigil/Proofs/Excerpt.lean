import Sigil.Proofs.Source

/-! The tokens of a statement are cut out of the line that it was read from: their characters stand in the line, in
the same order. In front of every argument of a call stands the mark of the call as well. -/
namespace Sigil

namespace Token

theorem closeGroupSublist {here : Nesting} {text inner rest : Text} (h : closeGroup here text = some (inner, rest)) :
    inner.Sublist text ∧ rest.Sublist text := by
  rw [closeGroupSplit h]
  refine ⟨List.sublist_append_left inner _, ?_⟩
  exact (List.sublist_cons_self ')' rest).trans (List.sublist_append_right inner _)

theorem trimStartTail {text tail : Text} {c : Char} (start : text.trimStart = c :: tail) : tail.Sublist text := by
  have cut : text.trimStart.Sublist text := List.dropWhile_sublist Text.isBlank
  rw [start] at cut
  exact (List.sublist_cons_self c tail).trans cut

theorem argumentsSublist {text arg : Text} {args : List Text} (h : arguments text = .ok args) (member : arg ∈ args) :
    arg.Sublist text := by
  fun_induction arguments text generalizing args with
  | case1 => cases h; simp at member
  | case2 => simp at h
  | case3 text tail inner rest close after start =>
    cases h
    cases List.mem_singleton.mp member
    exact ((Text.trimSublist inner).trans (closeGroupSublist close).1).trans (trimStartTail start)
  | case4 text tail inner rest close more start after smaller ih =>
    obtain ⟨others, found, same⟩ := mapOk h
    cases same
    rcases List.mem_cons.mp member with rfl | later
    · exact ((Text.trimSublist inner).trans (closeGroupSublist close).1).trans (trimStartTail start)
    · have behind : more.Sublist rest := trimStartTail after
      exact ((ih found later).trans behind).trans ((closeGroupSublist close).2.trans (trimStartTail start))
  | case5 => simp at h
  | case6 => simp at h

theorem operandsSublist {whole text word : Text} {words : List Text} (h : operandsOf whole text = .ok words)
    (member : word ∈ words) : word.Sublist text := by
  fun_induction operandsOf whole text generalizing words with
  | case1 => cases h; simp at member
  | case2 => simp at h
  | case3 text c tail start first rest taken smaller ih =>
    obtain ⟨others, found, same⟩ := mapOk h
    cases same
    have cut : (c :: tail).Sublist text := start ▸ List.dropWhile_sublist Text.isBlank
    rw [wordSplit taken] at cut
    rcases List.mem_cons.mp member with rfl | later
    · exact (List.sublist_append_left _ _).trans cut
    · exact ((ih found later).trans (List.sublist_append_right _ _)).trans cut

theorem unwrapSublist (text : Text) : (unwrapGroup text).Sublist text := by
  have trimmed := Text.trimSublist text
  unfold unwrapGroup
  split
  · rename_i tail start
    rw [start] at trimmed
    split
    · rename_i inner close
      have inside := (Text.trimSublist inner).trans (closeGroupSublist close).1
      exact inside.trans ((List.sublist_cons_self '(' tail).trans trimmed)
    · exact trimmed
  · exact trimmed

theorem assignmentSublist {text value : Text} (h : assignmentValue text = .ok value) : value.Sublist text := by
  have trimmed := Text.trimSublist text
  unfold assignmentValue at h
  split at h
  · rename_i tail start
    rw [start] at trimmed
    split at h
    · simp at h
    · rename_i inner rest close
      split at h
      · cases h
        have inside := (Text.trimSublist inner).trans (closeGroupSublist close).1
        exact inside.trans ((List.sublist_cons_self '(' tail).trans trimmed)
      · simp at h
  · obtain ⟨words, _, same⟩ := mapOk h
    cases same
    exact trimmed

end Token

namespace Statement

theorem expectSublist {fixed text rest : Text} (h : expect fixed text = some rest) : rest.Sublist text := by
  rw [expectSplit h]
  exact List.sublist_append_right fixed rest

theorem gapSublist {text rest : Text} (h : gap text = some rest) : rest.Sublist text := by
  cases text with
  | nil => simp [gap] at h
  | cons c tail =>
    simp only [gap] at h
    split at h
    · cases h
      exact (List.dropWhile_sublist isGap).trans (List.sublist_cons_self c tail)
    · contradiction

theorem takenSublist {text name rest : Text} (h : Text.takeIdentifier text = some (name, rest)) :
    rest.Sublist text := by
  rw [(Text.takeIdentifierSplit h).1]
  exact List.sublist_append_right name rest

theorem markedNameSublist {keyword text name rest : Text} (h : markedName keyword text = some (name, rest)) :
    rest.Sublist text := by
  simp only [markedName, bind, Option.bind_eq_some_iff] at h
  obtain ⟨_, begun, _, apart, _, marked, taken⟩ := h
  exact (takenSublist taken).trans
    ((expectSublist marked).trans ((gapSublist apart).trans (expectSublist begun)))

theorem callHeadSublist {text module name args : Text} (h : callHead text = some (module, name, args)) :
    ('!' :: args).Sublist text := by
  simp only [callHead, bind, Option.bind_eq_some_iff] at h
  obtain ⟨rest, sign, ⟨first, after⟩, taken, h⟩ := h
  have skipped : (skipGap rest).Sublist rest := List.dropWhile_sublist isGap
  have behind : after.Sublist rest := (takenSublist taken).trans skipped
  rw [expectSplit sign]
  refine List.Sublist.cons_cons '!' ?_
  cases colon : expect [':'] after with
  | some tail =>
    simp only [colon, Option.some.injEq, Prod.mk.injEq] at h
    obtain ⟨_, _, rfl⟩ := h
    exact (expectSublist colon).trans behind
  | none =>
    simp only [colon, Option.bind_eq_some_iff] at h
    obtain ⟨_, between, ⟨second, tail⟩, named, _, closing, same⟩ := h
    simp only [Option.some.injEq, Prod.mk.injEq] at same
    obtain ⟨_, _, rfl⟩ := same
    exact (expectSublist closing).trans ((takenSublist named).trans ((gapSublist between).trans behind))

theorem parseCallSublist {text arg : Text} {call : Call} (h : parseCall text = .ok call) (member : arg ∈ call.args) :
    ('!' :: arg).Sublist text := by
  unfold parseCall at h
  split at h
  · rename_i module name args head
    obtain ⟨found, read, same⟩ := mapOk h
    cases same
    have inside := (Token.argumentsSublist read member).cons_cons '!'
    exact inside.trans ((callHeadSublist head).trans (Text.trimSublist text))
  · split at h <;> contradiction

theorem assignmentPartsSublist {line name type flags value : Text}
    (h : assignmentParts line = some (name, type, flags, value)) : value.Sublist line := by
  simp only [assignmentParts, bind, Option.bind_eq_some_iff] at h
  obtain ⟨_, marked, ⟨_, _⟩, named, _, apart, _, opened, _, closed, _, equals, last⟩ := h
  split at last
  · simp at last
  · cases last
    have head := (takenSublist named).trans (expectSublist marked)
    have typed := (expectSublist opened).trans (List.dropWhile_sublist _) |>.trans (gapSublist apart)
    have flagged := (expectSublist closed).trans (List.dropWhile_sublist _)
    have said := (expectSublist equals).trans (List.dropWhile_sublist isGap)
    exact said.trans (flagged.trans (typed.trans head))

inductive Holds : Statement → Text → Prop where
  | argument {call : Call} {arg : Text} (member : arg ∈ call.args) : Holds (.call call) arg
  | value (assignment : Assignment) : Holds (.assign assignment) assignment.value
  | lower (name lower upper : Text) : Holds (.openLoop name lower upper) lower
  | upper (name lower upper : Text) : Holds (.openLoop name lower upper) upper
  | operand {condition word : Text} {words : List Text} (label : Text) (read : Token.operands condition = .ok words)
      (member : word ∈ words) : Holds (.conditional label condition) (Token.unwrapGroup word)

variable {line token : Text} {statement : Statement}

theorem assignmentHolds (h : parseAssignment line = .ok statement) (holds : statement.Holds token) :
    token.Sublist line := by
  unfold parseAssignment at h
  split at h
  · simp at h
  · rename_i parts
    split at h
    · simp at h
    · obtain ⟨value, read, rfl⟩ := mapOk h
      cases holds
      exact (Token.assignmentSublist read).trans (assignmentPartsSublist parts)

theorem loopHolds (h : parseLoop line = .ok statement) (holds : statement.Holds token) : token.Sublist line := by
  unfold parseLoop at h
  split at h
  · rename_i opened
    split at h <;> simp at h
    rename_i lower upper read
    subst h
    have words word (member : word ∈ [lower, upper]) : (Token.unwrapGroup word).Sublist line :=
      (Token.unwrapSublist word).trans ((Token.operandsSublist read member).trans (markedNameSublist opened))
    cases holds with
    | lower => exact words lower (by simp)
    | upper => exact words upper (by simp)
  · split at h
    · split at h <;> simp at h
      subst h
      cases holds
    · simp at h

theorem conditionalHolds (h : parseConditional line = .ok statement) (holds : statement.Holds token) :
    token.Sublist line := by
  unfold parseConditional at h
  split at h
  · cases h
    cases holds
  · split at h <;> simp at h
    rename_i parts
    subst h
    simp only [conditionalParts, bind, Option.bind_eq_some_iff] at parts
    obtain ⟨⟨label, rest⟩, marked, condition, barred, last⟩ := parts
    split at last
    · simp at last
    · cases last
      cases holds with
      | @operand _ word words _ read member =>
        have inside := (Token.unwrapSublist word).trans (Token.operandsSublist read member)
        have behind := (expectSublist barred).trans (List.dropWhile_sublist isGap)
        exact inside.trans ((Text.trimSublist condition).trans (behind.trans (markedNameSublist marked)))

theorem holdsSublist (h : parse line = .ok statement) (holds : statement.Holds token) : token.Sublist line := by
  refine List.Sublist.trans ?_ (Text.trimSublist line)
  unfold parse at h
  split at h
  · cases h
    cases holds
  · rename_i c rest trimmed
    rw [trimmed]
    split at h
    · cases h
      cases holds
    · split at h
      · obtain ⟨call, read, rfl⟩ := mapOk h
        cases holds with
        | argument member => exact (List.sublist_cons_self '!' token).trans (parseCallSublist read member)
      · split at h
        · exact assignmentHolds h holds
        · split at h
          · exact loopHolds h holds
          · split at h
            · exact conditionalHolds h holds
            · simp at h

end Statement
end Sigil
