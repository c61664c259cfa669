import Sigil.Proofs.Listing

/-! One value in parentheses, read as an argument of a call, as the value of an assignment and as an operand. In each of
these places it is read as the same value, although an operand is cut out by another scan than the other two. -/
namespace Sigil.Token

theorem Gap.around (text : Text) : ∃ lead last : Gap, text = lead.text ++ (text.trim ++ last.text) := by
  refine ⟨leading text, ⟨(text.trimStart.reverse.takeWhile Text.isBlank).reverse, ?_⟩, ?_⟩
  · intro c member
    exact List.mem_takeWhile_imp (List.mem_reverse.mp member)
  · have ends : text.trim ++ (text.trimStart.reverse.takeWhile Text.isBlank).reverse = text.trimStart := by
      rw [Text.trim, Text.trimEnd, ← List.reverse_append, List.takeWhile_append_dropWhile, List.reverse_reverse]
    rw [ends, leadingSplit]

theorem Group.trimAround (lead : Gap) (group : Group) (last : Gap) :
    Text.trim (lead.text ++ (group.text ++ last.text)) = group.text :=
  (Text.trimAround lead.blank last.blank _).trans (parensTrimmed group.inner)

def Grouped (text value : Text) : Prop := ∃ group : Group, text.trim = group.text ∧ value = group.inner.trim

namespace Grouped
variable {text value : Text}

theorem opens (grouped : Grouped text value) : text.trim.head? = some '(' := by
  obtain ⟨group, whole, _⟩ := grouped
  rw [whole]
  rfl

theorem closes (grouped : Grouped text value) : text.trim.getLast? = some ')' := by
  obtain ⟨group, whole, _⟩ := grouped
  rw [whole, Group.text, Statement.inParens, ← List.cons_append, List.getLast?_concat]

theorem differs (grouped : Grouped text value) : value ≠ text.trim := by
  obtain ⟨group, whole, rfl⟩ := grouped
  intro same
  have length := congrArg List.length (same.trans whole)
  have shorter := Text.trimLength group.inner
  simp only [Group.text, Statement.inParens, List.length_cons, List.length_append, List.length_nil] at length
  omega

theorem assigned (grouped : Grouped text value) : assignmentValue text = .ok value := by
  obtain ⟨group, whole, rfl⟩ := grouped
  unfold assignmentValue
  rw [whole]
  simp only [Group.text, Statement.inParens, group.closes []]
  rfl

theorem unwrapped (grouped : Grouped text value) : unwrapGroup text = value := by
  obtain ⟨group, whole, rfl⟩ := grouped
  unfold unwrapGroup
  rw [whole]
  simp only [Group.text, Statement.inParens, group.closes []]

theorem argument (grouped : Grouped text value) : arguments text = .ok [value] := by
  obtain ⟨group, whole, rfl⟩ := grouped
  obtain ⟨lead, last, around⟩ := Gap.around text
  rw [around, whole]
  exact Listing.readLast lead group last

theorem operand (grouped : Grouped text value) : operands text = .ok [text.trim] := by
  obtain ⟨group, whole, rfl⟩ := grouped
  obtain ⟨lead, last, around⟩ := Gap.around text
  have stops : Stops last.text := fun c found => last.blank c (List.mem_of_mem_head? found)
  have read := operandsStep text lead.blank (parensSingle group.balanced) stops
  rw [operandsBlank text last.blank] at read
  rw [operands, whole]
  nth_rewrite 2 [around]
  rw [whole]
  exact read

end Grouped

variable {text value : Text}

theorem assignedGrouped (opens : text.trim.head? = some '(') (read : assignmentValue text = .ok value) :
    Grouped text value := by
  unfold assignmentValue at read
  split at read
  · rename_i tail whole
    split at read
    · simp at read
    · rename_i inner rest close
      split at read
      · rename_i behind
        cases read
        obtain ⟨balanced, rfl⟩ := closeGroupIff.mp close
        have written : text.trim = Statement.inParens inner ++ rest := by simpa [Statement.inParens] using whole
        refine ⟨⟨inner, balanced⟩, ?_, rfl⟩
        rw [← Text.trimTrim, written, Text.trimEnding _ (List.dropWhile_eq_nil_iff.mp behind)]
        exact parensTrimmed inner
      · simp at read
  · rename_i bare
    obtain ⟨tail, whole⟩ := List.head?_eq_some_iff.mp opens
    exact absurd whole (bare tail)

theorem argumentGrouped (read : arguments text = .ok [value]) (closes : text.trim.getLast? = some ')') :
    Grouped text value := by
  obtain ⟨listing, rfl, args⟩ := Listing.written read
  match listing, args with
  | .groups lead first [] none last, args =>
    cases args
    exact ⟨first, Group.trimAround lead first last, rfl⟩
  | .groups lead first [] (some gap) last, args =>
    -- The comma would be the last character that is not blank.
    have written : (Listing.groups lead first [] (some gap) last).text =
        lead.text ++ ('(' :: ((first.inner ++ ')' :: gap.text) ++ [',']) ++ last.text) := by
      simp [Listing.text, Listing.tail, Listing.ending, Group.text, Statement.inParens]
    have trimmed : Text.Trimmed ('(' :: ((first.inner ++ ')' :: gap.text) ++ [','])) :=
      Text.signTrimmed (by decide) _ (List.cons_ne_nil _ _) rfl
    rw [written, Text.trimAround lead.blank last.blank, trimmed, ← List.cons_append, List.getLast?_concat] at closes
    simp at closes

theorem unwrappedGrouped (unwrapped : unwrapGroup text.trim = value) (differs : value ≠ text.trim) :
    Grouped text value := by
  unfold unwrapGroup at unwrapped
  rw [Text.trimTrim] at unwrapped
  split at unwrapped
  · rename_i tail whole
    split at unwrapped
    · rename_i inner close
      obtain ⟨balanced, rfl⟩ := closeGroupIff.mp close
      exact ⟨⟨inner, balanced⟩, whole, unwrapped.symm⟩
    · exact absurd (unwrapped.symm.trans whole.symm) differs
  · exact absurd unwrapped.symm differs

theorem assignedUnwrapped (read : assignmentValue text = .ok value) : unwrapGroup text = value := by
  by_cases opens : text.trim.head? = some '('
  · exact (assignedGrouped opens read).unwrapped
  · unfold assignmentValue at read
    unfold unwrapGroup
    split at read
    · rename_i tail whole
      exact absurd (congrArg List.head? whole) opens
    · obtain ⟨words, _, same⟩ := mapOk read
      exact same

theorem readsAlike (text value : Text) :
    (text.trim.head? = some '(' ∧ assignmentValue text = .ok value ↔
      arguments text = .ok [value] ∧ text.trim.getLast? = some ')') ∧
    (text.trim.head? = some '(' ∧ assignmentValue text = .ok value ↔
      ∃ token, operands text = .ok [token] ∧ token = text.trim ∧ unwrapGroup token = value ∧ value ≠ token) ∧
    (assignmentValue text = .ok value → unwrapGroup text = value) := by
  have assigned : text.trim.head? = some '(' ∧ assignmentValue text = .ok value ↔ Grouped text value :=
    ⟨fun ⟨opens, read⟩ => assignedGrouped opens read, fun grouped => ⟨grouped.opens, grouped.assigned⟩⟩
  refine ⟨assigned.trans ⟨?_, ?_⟩, assigned.trans ⟨?_, ?_⟩, assignedUnwrapped⟩
  · intro grouped
    exact ⟨grouped.argument, grouped.closes⟩
  · intro ⟨read, closes⟩
    exact argumentGrouped read closes
  · intro grouped
    refine ⟨text.trim, grouped.operand, rfl, ?_, grouped.differs⟩
    obtain ⟨group, whole, same⟩ := grouped
    exact Grouped.unwrapped ⟨group, (Text.trimTrim text).trans whole, same⟩
  · rintro ⟨token, _, rfl, unwrapped, differs⟩
    exact unwrappedGrouped unwrapped differs

end Sigil.Token
