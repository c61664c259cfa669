import Sigil.Proofs.Reduction
import Sigil.Proofs.Spacing

/-! Text in which all that opens is closed. Such a text is cut into operands, and no other: where a string or a group
stays open a condition, the bounds of a loop and a bare value are refused. A parenthesis that closes nothing is let
through, and these are the only texts that are cut without being balanced. -/
namespace Sigil

namespace Token

/- Balanced texts with a parenthesis between each two that closes nothing; the number is that of these parentheses. -/
inductive Settled : Nat → Text → Prop where
  | balanced {text : Text} (whole : Balanced text) : Settled 0 text
  | stray {count : Nat} {front rest : Text} (before : Balanced front) (behind : Settled count rest) :
      Settled (count + 1) (front ++ ')' :: rest)

theorem Balanced.append {front rest : Text} (balanced : Balanced front) (other : Balanced rest) :
    Balanced (front ++ rest) := by
  induction balanced with
  | nil => exact other
  | plain free _ ih => exact .plain free ih
  | quoted string _ ih => simpa using Balanced.quoted string ih
  | group inside _ _ ih => simpa using Balanced.group inside ih

theorem gapBalanced {gap : Text} (blank : ∀ c ∈ gap, Text.isBlank c = true) : Balanced gap := by
  induction gap with
  | nil => exact .nil
  | cons c gap ih =>
    exact .plain (blankPlain (blank c List.mem_cons_self)) (ih fun d member => blank d (List.mem_cons_of_mem c member))

theorem stringAfter {body : Text} (string : StringBody body) (depth : Nat) :
    (Nesting.quoted depth).after (body ++ ['"']) = .outside depth := by
  induction string with
  | nil => rfl
  | @plain c tail free _ ih =>
    have stay : (Nesting.quoted depth).next c = .quoted depth := by simp [Nesting.next, free]
    simpa [Nesting.after, stay] using ih
  | escaped _ ih => exact ih

theorem balancedAfter {text : Text} (balanced : Balanced text) (depth : Nat) :
    (Nesting.outside depth).after text = .outside depth := by
  induction balanced generalizing depth with
  | nil => rfl
  | @plain c tail free _ ih =>
    have stay : (Nesting.outside depth).next c = .outside depth := by simp [Nesting.next, free]
    simpa [Nesting.after, stay] using ih depth
  | @quoted body tail string _ ih =>
    have split : '"' :: (body ++ '"' :: tail) = ['"'] ++ ((body ++ ['"']) ++ tail) := by simp
    have enter : (Nesting.outside depth).after ['"'] = .quoted depth := rfl
    rw [split, Nesting.afterAppend, enter, Nesting.afterAppend, stringAfter string, ih]
  | @group inner tail _ _ inside behind =>
    have split : '(' :: (inner ++ ')' :: tail) = ['('] ++ (inner ++ ([')'] ++ tail)) := rfl
    have enter : (Nesting.outside depth).after ['('] = .outside (depth + 1) := rfl
    have leave : (Nesting.outside (depth + 1)).after [')'] = .outside depth := rfl
    rw [split, Nesting.afterAppend, enter, Nesting.afterAppend, inside, Nesting.afterAppend, leave, behind]

namespace Settled
variable {count more : Nat} {text rest : Text}

theorem after (settled : Settled count text) : (Nesting.outside 0).after text = .outside 0 := by
  induction settled with
  | balanced whole => exact balancedAfter whole 0
  | @stray count front rest before _ ih =>
    have stay : (Nesting.outside 0).after [')'] = .outside 0 := rfl
    rw [Nesting.afterAppend, balancedAfter before, ← List.singleton_append, Nesting.afterAppend, stay, ih]

theorem behind (settled : Settled count rest) (balanced : Balanced text) : Settled count (text ++ rest) := by
  cases settled with
  | balanced whole => exact .balanced (balanced.append whole)
  | stray before behind =>
    rw [← List.append_assoc]
    exact .stray (balanced.append before) behind

theorem append (settled : Settled count text) (other : Settled more rest) : Settled (count + more) (text ++ rest) := by
  induction settled with
  | balanced whole =>
    rw [Nat.zero_add]
    exact other.behind whole
  | stray before _ ih =>
    rw [Nat.succ_add, List.append_assoc]
    exact .stray before ih

theorem balancedIff (settled : Settled count text) : Balanced text ↔ count = 0 := by
  cases settled with
  | balanced whole => exact iff_of_true whole rfl
  | @stray count front rest before behind =>
    refine iff_of_false (fun whole => ?_) (Nat.succ_ne_zero count)
    have early : closeGroup (.outside 1) (front ++ ')' :: rest ++ [')']) = some (front, rest ++ [')']) :=
      closeGroupIff.mpr ⟨before, by simp⟩
    have late : closeGroup (.outside 1) (front ++ ')' :: rest ++ [')']) = some (front ++ ')' :: rest, []) :=
      closeGroupIff.mpr ⟨whole, rfl⟩
    rw [early] at late
    simp at late

end Settled

theorem Compact.settled {text : Text} (compact : Compact text) : ∃ count, Settled count text := by
  induction compact with
  | nil => exact ⟨0, .balanced .nil⟩
  | @plain c tail _ free _ ih =>
    obtain ⟨count, settled⟩ := ih
    by_cases closes : c = ')'
    · subst closes
      exact ⟨count + 1, .stray .nil settled⟩
    · exact ⟨count, settled.behind (.plain ⟨free.1, free.2, closes⟩ .nil)⟩
  | quoted string _ ih =>
    obtain ⟨count, settled⟩ := ih
    exact ⟨count, by simpa using settled.behind (.quoted string .nil)⟩
  | group inside _ ih =>
    obtain ⟨count, settled⟩ := ih
    exact ⟨count, by simpa using settled.behind (.group inside .nil)⟩

theorem Spacing.settled {words : List Text} (spacing : Spacing words) (compact : ∀ word ∈ words, Compact word) :
    ∃ count, Settled count spacing.text := by
  induction words with
  | nil =>
    rw [blankText]
    exact ⟨0, .balanced (gapBalanced spacing.lead.blank)⟩
  | cons first words ih =>
    obtain ⟨behind, apart, split⟩ := spacing.behindFirst
    obtain ⟨more, others⟩ := ih behind fun word member => compact word (List.mem_cons_of_mem first member)
    obtain ⟨count, own⟩ := (compact first List.mem_cons_self).settled
    rw [split, prependText]
    exact ⟨count + more, (own.append others).behind (gapBalanced spacing.lead.blank)⟩

theorem operandsSettled {text : Text} : (∃ words, operands text = .ok words) ↔ ∃ count, Settled count text := by
  constructor
  · intro ⟨words, read⟩
    obtain ⟨⟨spacing, rfl⟩, compact⟩ := operandsIff.mp read
    exact spacing.settled fun word member => (compact word member).2
  · intro ⟨count, settled⟩
    cases read : operands text with
    | ok words => exact ⟨words, rfl⟩
    | error fault => exact absurd settled.after (operandsRefused.mp read).2

theorem operandsUnsettled {text : Text} {fault : SyntaxFault} :
    operands text = .error fault ↔ fault = .unbalanced text.trim ∧ ∀ count, ¬Settled count text := by
  constructor
  · intro read
    refine ⟨(operandsRefused.mp read).1, fun count settled => ?_⟩
    exact (operandsRefused.mp read).2 settled.after
  · rintro ⟨rfl, never⟩
    cases read : operands text with
    | ok words =>
      obtain ⟨count, settled⟩ := operandsSettled.mp ⟨words, read⟩
      exact absurd settled (never count)
    | error fault => rw [(operandsRefused.mp read).1]

theorem bareUnsettled {text : Text} (trimmed : text.Trimmed) (bare : text.head? ≠ some '(')
    (never : ∀ count, ¬Settled count text) : assignmentValue text = .error (.unbalanced text) := by
  have whole : text.trim = text := trimmed
  have refused : operands text = .error (.unbalanced text.trim) := operandsUnsettled.mpr ⟨rfl, never⟩
  unfold assignmentValue
  rw [whole] at refused ⊢
  split
  · simp at bare
  · rw [refused]
    rfl

end Token

namespace Statement

theorem boundsUnsettled {line name bounds : Text} (opens : markedName "@n".toList line = some (name, bounds))
    (never : ∀ count, ¬Token.Settled count bounds) : parseLoop line = .error (.unbalanced bounds.trim) := by
  have refused := Token.operandsUnsettled.mpr ⟨rfl, never⟩
  simp only [parseLoop, opens, refused]

end Statement

namespace Token

theorem cutIfSettled (text : Text) :
    ((∃ words, operands text = .ok words) ↔ ∃ count, Settled count text) ∧
    (∀ fault, operands text = .error fault ↔ fault = .unbalanced text.trim ∧ ∀ count, ¬Settled count text) ∧
    (∀ count, Settled count text → (Balanced text ↔ count = 0)) ∧
    ((∀ count, ¬Settled count text) →
      (∀ (ω : Type) (operand : Text → Eval ω Value),
        Condition.evaluate operand text = .fail (.malformed (.unbalanced text.trim))) ∧
      (∀ line name, Statement.markedName "@n".toList line = some (name, text) →
        Statement.parseLoop line = .error (.unbalanced text.trim)) ∧
      (text.Trimmed → text.head? ≠ some '(' → assignmentValue text = .error (.unbalanced text))) := by
  refine ⟨operandsSettled, fun fault => operandsUnsettled, fun count => Settled.balancedIff, fun never => ⟨?_, ?_, ?_⟩⟩
  · intro ω operand
    exact Condition.evaluateUnread (operandsUnsettled.mpr ⟨rfl, never⟩) operand
  · intro line name opens
    exact Statement.boundsUnsettled opens never
  · intro trimmed bare
    exact bareUnsettled trimmed bare never

theorem strayNoPartner : (∀ count, ¬Settled count "a) (b".toList) ∧
    operands "a) (b".toList = .error (.unbalanced "a) (b".toList) ∧
    assignmentValue "a) (b".toList = .error (.unbalanced "a) (b".toList) := by
  have unclosed : (Nesting.outside 0).after "a) (b".toList ≠ .outside 0 := by decide
  have never : ∀ count, ¬Settled count "a) (b".toList := fun count settled => unclosed settled.after
  obtain ⟨_, refused, _, spread⟩ := cutIfSettled "a) (b".toList
  exact ⟨never, (refused _).mpr ⟨rfl, never⟩, (spread never).2.2 rfl (by decide)⟩

theorem strayTaken : operands "a)".toList = .ok ["a)".toList] ∧ ¬Balanced "a)".toList ∧
    Statement.parse "$x string[] = a)".toList = .ok (.assign ⟨['x'], .string, [], "a)".toList⟩) := by
  have unbalanced : ¬Balanced "a)".toList := mt isBalancedIff.mpr (by decide)
  exact ⟨by decide +kernel, unbalanced, by decide +kernel⟩

end Token
end Sigil
