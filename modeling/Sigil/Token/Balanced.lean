import Sigil.Token.Nesting

/-!
Balanced text: every quoted string ends and every parenthesis outside strings has its partner.
A group that closes is exactly a balanced text with a closing parenthesis behind it.
-/
namespace Sigil.Token

inductive StringBody : Text → Prop where
  | nil : StringBody []
  | plain {c : Char} {rest : Text} (free : c ≠ '"' ∧ c ≠ '\\') (tail : StringBody rest) :
      StringBody (c :: rest)
  | escaped {c : Char} {rest : Text} (tail : StringBody rest) : StringBody ('\\' :: c :: rest)

inductive Balanced : Text → Prop where
  | nil : Balanced []
  | plain {c : Char} {rest : Text} (free : c ≠ '"' ∧ c ≠ '(' ∧ c ≠ ')') (tail : Balanced rest) :
      Balanced (c :: rest)
  | quoted {body rest : Text} (string : StringBody body) (tail : Balanced rest) :
      Balanced ('"' :: (body ++ '"' :: rest))
  | group {inner rest : Text} (inside : Balanced inner) (tail : Balanced rest) :
      Balanced ('(' :: (inner ++ ')' :: rest))

def isBalanced (text : Text) : Bool := closeGroup (.outside 1) (text ++ [')']) == some (text, [])

def ahead (text : Text) (found : Option (Text × Text)) : Option (Text × Text) :=
  found.map fun found => (text ++ found.1, found.2)

theorem aheadAppend (left right : Text) (found : Option (Text × Text)) :
    ahead (left ++ right) found = ahead left (ahead right found) := by
  cases found <;> simp [ahead]

theorem closeGroupStep {here : Nesting} {c : Char} (rest : Text) (within : ¬(here = .outside 1 ∧ c = ')')) :
    closeGroup here (c :: rest) = ahead [c] (closeGroup (here.next c) rest) := by
  simp [closeGroup, within, ahead]

theorem closeGroupString {body : Text} (string : StringBody body) (depth : Nat) (rest : Text) :
    closeGroup (.quoted depth) (body ++ '"' :: rest) =
      ahead (body ++ ['"']) (closeGroup (.outside depth) rest) := by
  induction string with
  | nil => rw [List.nil_append, closeGroupStep rest (by simp)]; rfl
  | @plain c tail free _ ih =>
    rw [List.cons_append, closeGroupStep _ (by simp)]
    have stay : (Nesting.quoted depth).next c = .quoted depth := by simp [Nesting.next, free]
    rw [stay, ih, ← aheadAppend]
    rfl
  | @escaped c tail _ ih =>
    rw [List.cons_append, List.cons_append, closeGroupStep _ (by simp), closeGroupStep _ (by simp [Nesting.next])]
    have back : ((Nesting.quoted depth).next '\\').next c = .quoted depth := by simp [Nesting.next]
    rw [back, ih, ← aheadAppend, ← aheadAppend]
    rfl

theorem closeGroupBalanced {text : Text} (balanced : Balanced text) (depth : Nat) (rest : Text) :
    closeGroup (.outside (depth + 1)) (text ++ rest) =
      ahead text (closeGroup (.outside (depth + 1)) rest) := by
  induction balanced generalizing depth rest with
  | nil => cases h : closeGroup (.outside (depth + 1)) rest <;> simp [ahead, h]
  | @plain c tail free _ ih =>
    rw [List.cons_append, closeGroupStep _ (by simp [free])]
    have stay : (Nesting.outside (depth + 1)).next c = .outside (depth + 1) := by simp [Nesting.next, free]
    rw [stay, ih, ← aheadAppend]
    rfl
  | @quoted body tail string _ ih =>
    rw [List.cons_append, List.append_assoc, List.cons_append, closeGroupStep _ (by simp)]
    have enter : (Nesting.outside (depth + 1)).next '"' = .quoted (depth + 1) := rfl
    rw [enter, closeGroupString string, ih, ← aheadAppend, ← aheadAppend]
    simp
  | @group inner tail _ _ ihInner ihTail =>
    rw [List.cons_append, List.append_assoc, List.cons_append, closeGroupStep _ (by simp)]
    have enter : (Nesting.outside (depth + 1)).next '(' = .outside (depth + 1 + 1) := rfl
    have leave : (Nesting.outside (depth + 1 + 1)).next ')' = .outside (depth + 1) := rfl
    rw [enter, ihInner, closeGroupStep _ (by simp), leave, ihTail, ← aheadAppend, ← aheadAppend, ← aheadAppend]
    simp

theorem aheadSome {text taken rest : Text} {found : Option (Text × Text)}
    (h : ahead text found = some (taken, rest)) : ∃ more, taken = text ++ more ∧ found = some (more, rest) := by
  obtain ⟨⟨more, left⟩, step, same⟩ := Option.map_eq_some_iff.mp h
  cases same
  exact ⟨more, rfl, step⟩

theorem closeGroupQuoted {text taken rest : Text} {depth : Nat}
    (h : closeGroup (.quoted depth) text = some (taken, rest)) :
    ∃ body after more, StringBody body ∧ text = body ++ '"' :: after ∧ taken = body ++ '"' :: more ∧
      closeGroup (.outside depth) after = some (more, rest) := by
  match text with
  | [] => simp [closeGroup] at h
  | [c] =>
    rw [closeGroupStep _ (by simp)] at h
    obtain ⟨more, same, step⟩ := aheadSome h
    simp [closeGroup] at step
  | c :: d :: tail =>
    rw [closeGroupStep _ (by simp)] at h
    obtain ⟨more, same, step⟩ := aheadSome h
    by_cases quote : c = '"'
    · subst quote
      exact ⟨[], d :: tail, more, .nil, rfl, same, step⟩
    · by_cases slash : c = '\\'
      · subst slash
        rw [show (Nesting.quoted depth).next '\\' = .escaped depth from rfl, closeGroupStep _ (by simp)] at step
        obtain ⟨further, sameMore, next⟩ := aheadSome step
        obtain ⟨body, after, last, string, split, takenSplit, close⟩ := closeGroupQuoted next
        refine ⟨'\\' :: d :: body, after, last, .escaped string, by simp [split], ?_, close⟩
        simp [same, sameMore, takenSplit]
      · rw [show (Nesting.quoted depth).next c = .quoted depth by simp [Nesting.next, quote, slash]] at step
        obtain ⟨body, after, last, string, split, takenSplit, close⟩ := closeGroupQuoted step
        refine ⟨c :: body, after, last, .plain ⟨quote, slash⟩ string, by simp [split], ?_, close⟩
        simp [same, takenSplit]
termination_by text.length

theorem closeGroupTaken {text taken rest : Text} {depth : Nat}
    (h : closeGroup (.outside (depth + 1)) text = some (taken, rest)) :
    ∃ inner, Balanced inner ∧
      (depth = 0 ∧ taken = inner ∨ ∃ upper after more, depth = upper + 1 ∧ taken = inner ++ ')' :: more ∧
        text = inner ++ ')' :: after ∧ closeGroup (.outside depth) after = some (more, rest)) := by
  match text with
  | [] => simp [closeGroup] at h
  | c :: tail =>
    by_cases close : c = ')'
    · subst close
      cases depth with
      | zero =>
        simp only [closeGroup, true_and, Nat.zero_add, if_true] at h
        cases h
        exact ⟨[], .nil, .inl ⟨rfl, rfl⟩⟩
      | succ upper =>
        rw [closeGroupStep _ (by simp)] at h
        obtain ⟨more, same, step⟩ := aheadSome h
        exact ⟨[], .nil, .inr ⟨upper, tail, more, rfl, same, rfl, step⟩⟩
    · rw [closeGroupStep _ (by simp [close])] at h
      obtain ⟨more, same, step⟩ := aheadSome h
      by_cases quote : c = '"'
      · subst quote
        obtain ⟨body, after, further, string, split, takenSplit, next⟩ := closeGroupQuoted step
        have shorter : after.length < ('"' :: tail).length := by simp [split]; omega
        obtain ⟨inner, balanced, rest⟩ := closeGroupTaken next
        refine ⟨'"' :: (body ++ '"' :: inner), .quoted string balanced, ?_⟩
        rcases rest with ⟨top, whole⟩ | ⟨upper, left, last, level, takenRest, textRest, closing⟩
        · exact .inl ⟨top, by simp [same, takenSplit, whole]⟩
        · refine .inr ⟨upper, left, last, level, ?_, ?_, closing⟩
          · simp [same, takenSplit, takenRest]
          · simp [split, textRest]
      · by_cases opens : c = '('
        · subst opens
          rw [show (Nesting.outside (depth + 1)).next '(' = .outside (depth + 1 + 1) from rfl] at step
          obtain ⟨inside, balancedInside, found⟩ := closeGroupTaken step
          rcases found with ⟨impossible, _⟩ | ⟨upper, after, further, level, takenInside, textInside, next⟩
          · omega
          · have shorter : after.length < ('(' :: tail).length := by simp [textInside]; omega
            obtain ⟨inner, balanced, rest⟩ := closeGroupTaken next
            refine ⟨'(' :: (inside ++ ')' :: inner), .group balancedInside balanced, ?_⟩
            rcases rest with ⟨top, whole⟩ | ⟨lower, left, last, below, takenRest, textRest, closing⟩
            · exact .inl ⟨top, by simp [same, takenInside, whole]⟩
            · exact .inr ⟨lower, left, last, below, by simp [same, takenInside, takenRest],
                by simp [textInside, textRest], closing⟩
        · rw [show (Nesting.outside (depth + 1)).next c = .outside (depth + 1) by
            simp [Nesting.next, quote, opens, close]] at step
          obtain ⟨inner, balanced, rest⟩ := closeGroupTaken step
          refine ⟨c :: inner, .plain ⟨quote, opens, close⟩ balanced, ?_⟩
          rcases rest with ⟨top, whole⟩ | ⟨upper, left, last, level, takenRest, textRest, closing⟩
          · exact .inl ⟨top, by simp [same, whole]⟩
          · exact .inr ⟨upper, left, last, level, by simp [same, takenRest], by simp [textRest], closing⟩
termination_by text.length

theorem closeGroupIff {text inner rest : Text} :
    closeGroup (.outside 1) text = some (inner, rest) ↔ Balanced inner ∧ text = inner ++ ')' :: rest := by
  constructor
  · intro h
    obtain ⟨taken, balanced, found⟩ := closeGroupTaken h
    rcases found with ⟨_, same⟩ | ⟨_, _, _, impossible, _⟩
    · exact ⟨same ▸ balanced, closeGroupSplit h⟩
    · omega
  · rintro ⟨balanced, rfl⟩
    rw [closeGroupBalanced balanced]
    simp [closeGroup, ahead]

theorem isBalancedIff {text : Text} : isBalanced text = true ↔ Balanced text := by
  simp [isBalanced, closeGroupIff]

end Sigil.Token
