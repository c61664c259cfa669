import Sigil.Proofs.Balance
import Sigil.Proofs.Quotation

/-! Tokens that start with a quote. A token is cut out with its strings whole, but it is taken for a string by its first
and its last character alone. So one string is read as what it says, and text that does not end with a quote is
refused; where a token starts with one string and ends with another, all between the outer quotes is taken for one. -/
namespace Sigil

namespace Token

inductive Delimited : Text → Prop where
  | argument {text token : Text} {args : List Text} (read : arguments text = .ok args) (member : token ∈ args) :
      Delimited token
  | value {text token : Text} (read : assignmentValue text = .ok token) : Delimited token
  | operand {text word : Text} {words : List Text} (read : operands text = .ok words) (member : word ∈ words) :
      Delimited (unwrapGroup word)

def literal (body : Text) : Text := '"' :: (body ++ ['"'])

structure Alone (token body : Text) : Prop where
  string : StringBody body
  written : token = literal body

inductive Joined : Text → Text → Prop where
  | strings {first between last : Text} {count : Nat} (front : StringBody first) (inside : Settled count between)
      (back : StringBody last) :
      Joined (literal first ++ (between ++ literal last)) (first ++ '"' :: (between ++ '"' :: last))

def Quoted (token body : Text) : Prop := Alone token body ∨ Joined token body

theorem Quoted.written {token body : Text} (quoted : Quoted token body) : token = literal body := by
  rcases quoted with alone | ⟨front, inside, back⟩
  · exact alone.written
  · simp [literal]

theorem Quoted.unique {token body other : Text} (quoted : Quoted token body) (again : Quoted token other) :
    body = other := by
  have same := quoted.written.symm.trans again.written
  exact List.append_cancel_right (List.cons_inj_right '"' |>.mp same)

theorem stringUnique {body other rest more : Text} (string : StringBody body) (second : StringBody other)
    (same : body ++ '"' :: rest = other ++ '"' :: more) : body = other ∧ rest = more := by
  induction string generalizing other with
  | nil =>
    cases second with
    | nil => exact ⟨rfl, (List.cons_eq_cons.mp same).2⟩
    | plain free tail => exact absurd (List.cons_eq_cons.mp same).1.symm free.1
    | escaped tail => simp at same
  | plain free tail ih =>
    cases second with
    | nil => exact absurd (List.cons_eq_cons.mp same).1 free.1
    | plain otherFree otherTail =>
      obtain ⟨rfl, later⟩ := List.cons_eq_cons.mp same
      obtain ⟨rfl, behind⟩ := ih otherTail later
      exact ⟨rfl, behind⟩
    | escaped otherTail => exact absurd (List.cons_eq_cons.mp same).1 free.2
  | escaped tail ih =>
    cases second with
    | nil => simp at same
    | plain otherFree otherTail => exact absurd (List.cons_eq_cons.mp same).1.symm otherFree.2
    | escaped otherTail =>
      simp only [List.cons_append, List.cons.injEq, true_and] at same
      obtain ⟨rfl, later⟩ := same
      obtain ⟨rfl, behind⟩ := ih otherTail later
      exact ⟨rfl, behind⟩

theorem Alone.notJoined {token body other : Text} (alone : Alone token body) : ¬Joined token other := by
  rintro ⟨front, inside, back⟩
  obtain ⟨string, written⟩ := alone
  have same := (List.cons_inj_right '"').mp written
  have ends := (stringUnique front string (by simpa using same)).2
  simp [literal] at ends

theorem Balanced.startsString {inner : Text} (balanced : Balanced ('"' :: inner)) :
    ∃ body rest, StringBody body ∧ inner = body ++ '"' :: rest ∧ Balanced rest := by
  cases balanced with
  | plain free tail => exact absurd rfl free.1
  | quoted string tail => exact ⟨_, _, string, rfl, tail⟩

theorem Balanced.endsString {whole text : Text} (balanced : Balanced whole) (same : whole = text ++ ['"']) :
    ∃ between last, Balanced between ∧ StringBody last ∧ text = between ++ '"' :: last := by
  induction balanced generalizing text with
  | nil => simp at same
  | @plain c rest free tail ih =>
    cases text with
    | nil => exact absurd (List.cons_eq_cons.mp same).1 free.1
    | cons d text =>
      obtain ⟨rfl, shorter⟩ := List.cons_eq_cons.mp same
      obtain ⟨between, last, inside, string, rfl⟩ := ih shorter
      exact ⟨c :: between, last, .plain free inside, string, rfl⟩
  | @quoted body rest string tail ih =>
    rcases List.eq_nil_or_concat rest with rfl | ⟨inner, e, rfl⟩
    · have split : ('"' :: body) ++ ['"'] = text ++ ['"'] := same
      exact ⟨[], body, .nil, string, (List.append_cancel_right split).symm⟩
    · rw [List.concat_eq_append] at same ih
      have split : ('"' :: (body ++ '"' :: inner)) ++ [e] = text ++ ['"'] := by simpa using same
      obtain ⟨rfl, ends⟩ := List.append_inj' split rfl
      obtain ⟨between, last, inside, closing, rfl⟩ := ih (congrArg (inner ++ ·) ends)
      exact ⟨'"' :: (body ++ '"' :: between), last, .quoted string inside, closing, by simp⟩
  | @group inside rest within tail _ ih =>
    have split : ('(' :: inside) ++ ')' :: rest = text ++ ['"'] := same
    obtain ⟨inner, behind, rfl⟩ := lastBehind split (by decide)
    obtain ⟨between, last, middle, string, rfl⟩ := ih behind
    exact ⟨'(' :: (inside ++ ')' :: between), last, .group within middle, string, by simp⟩

namespace Settled
variable {count : Nat} {text : Text}

theorem startsString {inner : Text} (settled : Settled count text) (same : text = '"' :: inner) :
    ∃ body rest, StringBody body ∧ inner = body ++ '"' :: rest ∧ Settled count rest := by
  cases settled with
  | balanced whole =>
    rw [same] at whole
    obtain ⟨body, rest, string, split, tail⟩ := whole.startsString
    exact ⟨body, rest, string, split, .balanced tail⟩
  | @stray count front rest before behind =>
    cases front with
    | nil => simp at same
    | cons c front =>
      obtain ⟨rfl, rfl⟩ := List.cons_eq_cons.mp same
      obtain ⟨body, tail, string, rfl, inside⟩ := before.startsString
      exact ⟨body, tail ++ ')' :: rest, string, by simp, .stray inside behind⟩

theorem endsString {front : Text} (settled : Settled count text) (same : text = front ++ ['"']) :
    ∃ between last, Settled count between ∧ StringBody last ∧ front = between ++ '"' :: last := by
  induction settled generalizing front with
  | balanced whole =>
    obtain ⟨between, last, inside, string, split⟩ := whole.endsString same
    exact ⟨between, last, .balanced inside, string, split⟩
  | @stray count before rest balanced _ ih =>
    obtain ⟨inner, behind, rfl⟩ := lastBehind same (by decide)
    obtain ⟨between, last, inside, string, rfl⟩ := ih behind
    exact ⟨before ++ ')' :: between, last, .stray balanced inside, string, by simp⟩

theorem quoted {body : Text} (settled : Settled count (literal body)) : Quoted (literal body) body := by
  obtain ⟨first, rest, front, split, behind⟩ := settled.startsString rfl
  rcases List.eq_nil_or_concat rest with rfl | ⟨inner, e, rfl⟩
  · obtain rfl := List.append_cancel_right split
    exact .inl ⟨front, rfl⟩
  · rw [List.concat_eq_append] at split behind
    have whole : body ++ ['"'] = (first ++ '"' :: inner) ++ [e] := by simpa using split
    obtain ⟨rfl, ends⟩ := List.append_inj' whole rfl
    obtain ⟨between, last, inside, back, rfl⟩ := behind.endsString (congrArg (inner ++ ·) ends.symm)
    have joined := Joined.strings front inside back
    exact .inr (by simpa [literal] using joined)

end Settled

theorem Enclosed.settled {text : Text} (enclosed : Enclosed text) : ∃ count, Settled count text :=
  ⟨0, .balanced enclosed.balanced⟩

theorem assignmentSettled {text token : Text} (read : assignmentValue text = .ok token) :
    token.Trimmed ∧ ∃ count, Settled count token := by
  unfold assignmentValue at read
  split at read
  · split at read
    · simp at read
    · rename_i inner rest close
      have enclosed := enclosedTrim (closeGroupIff.mp close).1
      split at read
      · cases read
        exact ⟨enclosed.trimmed, enclosed.settled⟩
      · simp at read
  · obtain ⟨words, cut, same⟩ := mapOk read
    cases same
    exact ⟨Text.trimTrimmed text, operandsSettled.mp ⟨words, cut⟩⟩

theorem operandSettled {text word : Text} {words : List Text} (read : operands text = .ok words)
    (member : word ∈ words) : (unwrapGroup word).Trimmed ∧ ∃ count, Settled count (unwrapGroup word) := by
  cases unwrapBound (operandsSingle read word member) with
  | enclosed enclosed => exact ⟨enclosed.trimmed, enclosed.settled⟩
  | bare single bare => exact ⟨single.trimmed, (singleIff.mp single).2.settled⟩

theorem Delimited.formed {token : Text} (delimited : Delimited token) :
    token.Trimmed ∧ ∃ count, Settled count token := by
  cases delimited with
  | argument read member =>
    have enclosed := argumentsEnclosed read token member
    exact ⟨enclosed.trimmed, enclosed.settled⟩
  | value read => exact assignmentSettled read
  | operand read member => exact operandSettled read member

end Token

namespace Operand

theorem ofTrimmedLiteral (body : Text) :
    ofTrimmed (Token.literal body) = .ok (.literal (.str (Text.unescape body))) := by
  rw [Token.literal, ofTrimmedQuote]
  simp [ofString]

theorem ofTrimmedUnclosed {inner : Text} (unclosed : ∀ body, '"' :: inner ≠ Token.literal body) :
    ofTrimmed ('"' :: inner) = .error (.malformed (.stringNotClosed ('"' :: inner))) := by
  rw [ofTrimmedQuote, ofString, if_neg]
  intro last
  obtain ⟨body, whole⟩ := List.getLast?_eq_some_iff.mp last
  exact unclosed body (congrArg ('"' :: ·) whole)

end Operand

namespace Scope
variable {ω : Type}

theorem valueQuoted (scope : Scope ω) {token body : Text} (trimmed : token.Trimmed)
    (quoted : Token.Quoted token body) : scope.value token = pure (.str (Text.unescape body)) := by
  have whole : token.trim = token := trimmed
  rw [valueEq, Operand.ofToken, whole, quoted.written, Operand.ofTrimmedLiteral]

theorem valueUnquoted (scope : Scope ω) {token : Text} {count : Nat} (trimmed : token.Trimmed)
    (settled : Token.Settled count token) (opens : token.head? = some '"') (never : ∀ body, ¬Token.Quoted token body) :
    scope.value token = .fail (.malformed (.stringNotClosed token)) := by
  have whole : token.trim = token := trimmed
  obtain ⟨inner, rfl⟩ := List.head?_eq_some_iff.mp opens
  have unclosed : ∀ body, '"' :: inner ≠ Token.literal body := by
    intro body written
    rw [written] at settled never
    exact never body settled.quoted
  rw [valueEq, Operand.ofToken, whole, Operand.ofTrimmedUnclosed unclosed]

end Scope

namespace Token
variable {ω : Type}

theorem stringTokens {token : Text} (delimited : Delimited token) (opens : token.head? = some '"') (scope : Scope ω) :
    (∀ state value after, (scope.value token).run state = (.ok value, after) ↔
      after = state ∧ ∃ body, Quoted token body ∧ value = .str (Text.unescape body)) ∧
    (∀ state fault after, (scope.value token).run state = (.error fault, after) ↔
      after = state ∧ fault = .malformed (.stringNotClosed token) ∧ ∀ body, ¬Quoted token body) ∧
    (∀ body other, Alone token body → ¬Joined token other) ∧
    (Fault.malformed (.stringNotClosed token)).kind = .syntaxError := by
  obtain ⟨trimmed, count, settled⟩ := delimited.formed
  have apart : ∀ body other, Alone token body → ¬Joined token other := fun body other alone => alone.notJoined
  by_cases found : ∃ body, Quoted token body
  · obtain ⟨body, quoted⟩ := found
    rw [scope.valueQuoted trimmed quoted]
    refine ⟨fun state value after => ⟨fun ran => ?_, ?_⟩, fun state fault after => ⟨fun ran => ?_, ?_⟩, apart, rfl⟩
    · cases ran
      exact ⟨rfl, body, quoted, rfl⟩
    · rintro ⟨rfl, other, again, rfl⟩
      rw [again.unique quoted, Eval.runPure]
    · simp at ran
    · rintro ⟨_, _, never⟩
      exact absurd quoted (never body)
  · have never := not_exists.mp found
    rw [scope.valueUnquoted trimmed settled opens never]
    refine ⟨fun state value after => ⟨fun ran => ?_, ?_⟩, fun state fault after => ⟨fun ran => ?_, ?_⟩, apart, rfl⟩
    · simp at ran
    · rintro ⟨_, body, quoted, _⟩
      exact absurd quoted (never body)
    · cases ran
      exact ⟨rfl, rfl, never⟩
    · rintro ⟨rfl, rfl, _⟩
      rw [Eval.runFail]

def startScope : Scope Unit := ⟨Store.initial, Registry.initial, 1⟩

theorem stringTokensEscaped :
    (startScope.value "\"a\\\"(b\"".toList).run ⟨0, ()⟩ = (.ok (.str "a\"(b".toList), ⟨0, ()⟩) ∧
    (startScope.value "\"a\" b".toList).run ⟨0, ()⟩ =
      (.error (.malformed (.stringNotClosed "\"a\" b".toList)), ⟨0, ()⟩) := by
  have escaped : arguments "(\"a\\\"(b\"),".toList = .ok ["\"a\\\"(b\"".toList] := by decide +kernel
  have followed : assignmentValue "(\"a\" b)".toList = .ok "\"a\" b".toList := by decide +kernel
  have string : StringBody "a\\\"(b".toList :=
    .plain (by decide) (.escaped (.plain (by decide) (.plain (by decide) .nil)))
  have never : ∀ body, ¬Quoted "\"a\" b".toList body := by
    intro body quoted
    have last := congrArg List.getLast? quoted.written
    rw [literal, ← List.cons_append, List.getLast?_concat] at last
    simp at last
  have one := stringTokens (.argument escaped List.mem_cons_self) rfl startScope
  have other := stringTokens (.value followed) rfl startScope
  exact ⟨(one.1 _ _ _).mpr ⟨rfl, _, .inl ⟨string, rfl⟩, rfl⟩, (other.2.1 _ _ _).mpr ⟨rfl, rfl, never⟩⟩

theorem stringsJoined :
    arguments "(\"a\" \"b\")".toList = .ok ["\"a\" \"b\"".toList] ∧
    (∀ body, ¬Alone "\"a\" \"b\"".toList body) ∧
    (startScope.value "\"a\" \"b\"".toList).run ⟨0, ()⟩ = (.ok (.str "a\" \"b".toList), ⟨0, ()⟩) := by
  have joined : Joined "\"a\" \"b\"".toList "a\" \"b".toList :=
    .strings (.plain (by decide) .nil) (.balanced (.plain (by decide) .nil)) (.plain (by decide) .nil)
  have trimmed : Text.Trimmed "\"a\" \"b\"".toList := rfl
  have read := startScope.valueQuoted trimmed (.inr joined)
  refine ⟨by decide +kernel, fun body alone => alone.notJoined joined, ?_⟩
  rw [read]
  rfl

end Token
end Sigil
