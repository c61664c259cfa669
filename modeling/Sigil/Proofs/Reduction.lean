import Sigil.Proofs.Course
import Sigil.Proofs.Depth

/-! A condition is a strict fold from the left. Behind its first operand come stages, an operator and the operand to
its right each, and what one stage finds is the left operand of the next. Operands are evaluated as they are written,
each once and none skipped; where the fold fails it has evaluated the first of them and no others. -/
namespace Sigil.Condition

variable {ω α : Type}

def operandsAmong : List Text → List Text
  | [] => []
  | [word] => [Token.unwrapGroup word]
  | word :: _ :: rest => Token.unwrapGroup word :: operandsAmong rest

def operandsOf (expression : Text) : List Text :=
  match Token.operands expression with
  | .ok words => operandsAmong words
  | .error _ => []

def stages : List Text → List (Text × Option Text)
  | [] => []
  | [symbol] => [(symbol, none)]
  | symbol :: right :: rest => (symbol, some right) :: stages rest

def stage (operand : Text → Eval ω Value) (lack : Fault) (value : Value) : Text × Option Text → Eval ω Value
  | (_, none) => .fail lack
  | (symbol, some right) =>
    match Operator.named? symbol with
    | none => .fail (.unknownOperator symbol)
    | some operator => do
      let other ← operand (Token.unwrapGroup right)
      if operator.Applies value other then pure (.bool (operator.Holds value other))
      else .fail (.typeMismatch (.notComparable value.type other.type))

/- The first stage has to be whole before the operand to its left is evaluated. -/
def folded (operand : Text → Eval ω Value) (expression : Text) : Eval ω Bool := do
  let lack := Fault.insufficientOperands expression.trim
  match ← Eval.ofReading (Token.operands expression) with
  | [] => .fail lack
  | first :: rest =>
    match stages rest with
    | (_, none) :: _ => .fail lack
    | whole =>
      let value ← operand (Token.unwrapGroup first)
      let last ← whole.foldlM (stage operand lack) value
      pure last.truth

theorem stageApplies (operand : Text → Eval ω Value) (lack : Fault) (value : Value) {symbol : Text}
    {operator : Operator} (known : Operator.ofSymbol? symbol = some operator) (right : Text) :
    stage operand lack value (symbol, some right) = operand (Token.unwrapGroup right) >>= fun other =>
      Eval.ofExcept (operator.apply value other) >>= fun result => pure (.bool result) := by
  rw [Operator.ofSymbolNamed] at known
  simp only [stage, known]
  congr 1
  funext other
  rw [Operator.applyEq]
  split <;> rfl

theorem reduceFolded (operand : Text → Eval ω Value) (expression : Text) (value : Value) (words : List Text) :
    reduce operand expression value words =
      (stages words).foldlM (stage operand (.insufficientOperands expression.trim)) value := by
  fun_induction reduce operand expression value words with
  | case1 value => rfl
  | case2 value symbol => rfl
  | case3 value symbol right rest unknown =>
    rw [Operator.ofSymbolNamed] at unknown
    simp only [stages, List.foldlM_cons, stage, unknown]
    rfl
  | case4 value symbol right rest operator known ih =>
    simp only [stages, List.foldlM_cons, stageApplies operand _ value known, bind_assoc, pure_bind, ih]

theorem evaluateFolded (operand : Text → Eval ω Value) (expression : Text) :
    evaluate operand expression = folded operand expression := by
  rw [evaluateReduce, folded]
  congr 1
  funext words
  match words with
  | [] => rfl
  | [first] => rfl
  | [first, symbol] => rfl
  | first :: symbol :: right :: rest =>
    simp only [reduceFolded]
    rfl

def asking (operand : Text → Eval ω Value) (token : Text) : Eval (ω × List Text) Value := fun state =>
  let (result, after) := (operand token).run state.1
  (result, (after, state.2 ++ [token]))

theorem courseAsk {operand : Text → Eval ω Value} {token : Text} {world after : ω} {result : Except Fault Value}
    (ran : (operand token).run world = (result, after)) :
    Eval.Course Prod.mk (operand token) (asking operand token) world result [token] after :=
  ⟨ran, fun earlier => by simp only [Eval.run, asking] at ran ⊢; rw [ran]⟩

inductive Asks (operand : Text → Eval ω Value) : ω → List Text → Option Fault → ω → Prop where
  | nothing (world : ω) : Asks operand world [] none world
  | failed {world token fault after} (ran : (operand token).run world = (.error fault, after)) :
      Asks operand world [token] (some fault) after
  | onward {world token value middle rest stop after} (ran : (operand token).run world = (.ok value, middle))
      (later : Asks operand middle rest stop after) : Asks operand world (token :: rest) stop after

/- What ends the fold over these words when so many operands have been evaluated and none of them has failed: an
operator that has nothing to its right, one that is not known, or one that does not apply to the last operand. -/
inductive Blocked (lack : Fault) (words : List Text) : Nat → Fault → Prop where
  | lacking {count} (ends : words.length = 2 * count + 2) : Blocked lack words (count + 1) lack
  | unknown {count symbol} (here : words[2 * count + 1]? = some symbol) (more : 2 * count + 2 < words.length)
      (strange : ∀ operator : Operator, operator.symbol ≠ symbol) :
      Blocked lack words (count + 1) (.unknownOperator symbol)
  | misapplied {count} {operator : Operator} {left right} (here : words[2 * count + 1]? = some operator.symbol)
      (apart : ¬operator.Applies left right) :
      Blocked lack words (count + 2) (.typeMismatch (.notComparable left.type right.type))

inductive Ends (expression : Text) : Nat → Fault → Prop where
  | unread {cause} (read : Token.operands expression = .error cause) : Ends expression 0 (.malformed cause)
  | short {words} (read : Token.operands expression = .ok words) (few : words.length = 0 ∨ words.length = 2) :
      Ends expression 0 (.insufficientOperands expression.trim)
  | later {words count fault} (read : Token.operands expression = .ok words) (enough : words.length ≠ 2)
      (blocked : Blocked (.insufficientOperands expression.trim) words count fault) : Ends expression count fault

/- Which operands a computation evaluates: all of those given, from the left, or up to where it fails. -/
structure Account (operand : Text → Eval ω Value) (operands : List Text) (blocked : Nat → Fault → Prop)
    (plain : Eval ω α) (logged : Eval (ω × List Text) α) (world : ω) (result : Except Fault α) (asked : List Text)
    (after : ω) : Prop where
  course : Eval.Course Prod.mk plain logged world result asked after
  front : asked <+: operands
  success : ∀ a, result = .ok a → asked = operands ∧ Asks operand world asked none after
  failure : ∀ fault, result = .error fault → Asks operand world asked (some fault) after ∨
    Asks operand world asked none after ∧ blocked asked.length fault

theorem operandsCons (word : Text) (rest : List Text) :
    operandsAmong (word :: rest) = Token.unwrapGroup word :: operandsAmong rest.tail := by
  cases rest <;> rfl

theorem Blocked.behind {lack fault : Fault} {right : Text} {rest : List Text} {count : Nat}
    (blocked : Blocked lack (right :: rest) count fault) (word symbol : Text) :
    Blocked lack (word :: symbol :: right :: rest) (count + 1) fault := by
  cases blocked with
  | @lacking count ends =>
    have longer : (word :: symbol :: right :: rest).length = 2 * (count + 1) + 2 := by
      simp only [List.length_cons] at ends ⊢
      omega
    exact .lacking longer
  | @unknown count other here more strange =>
    have longer : 2 * (count + 1) + 2 < (word :: symbol :: right :: rest).length := by
      simp only [List.length_cons] at more ⊢
      omega
    exact .unknown here longer strange
  | @misapplied count operator _ _ here apart =>
    have there : (word :: symbol :: right :: rest)[2 * (count + 1) + 1]? = some operator.symbol := here
    exact .misapplied there apart

section Account
variable {operand : Text → Eval ω Value} {operands asked : List Text} {blocked : Nat → Fault → Prop}
  {world middle after : ω} {token : Text} {fault : Fault}

theorem accountNothing {plain : Eval ω α} {logged : Eval (ω × List Text) α}
    (course : Eval.Course Prod.mk plain logged world (.error fault) [] world) (reason : blocked 0 fault) :
    Account operand operands blocked plain logged world (.error fault) [] world where
  course := course
  front := List.nil_prefix
  success _ same := nomatch same
  failure other same := by
    cases same
    exact .inr ⟨.nothing world, reason⟩

variable {next : Value → Eval ω α} {next' : Value → Eval (ω × List Text) α}

theorem accountFailed (ran : (operand token).run world = (.error fault, after)) :
    Account operand (token :: operands) blocked (operand token >>= next) (asking operand token >>= next') world
      (.error fault) [token] after where
  course := (courseAsk ran).stops
  front := List.prefix_append [token] operands
  success _ same := nomatch same
  failure other same := by
    cases same
    exact .inl (.failed ran)

theorem Account.behind {value : Value} {result : Except Fault α} {stuck : Nat → Fault → Prop}
    (account : Account operand operands blocked (next value) (next' value) middle result asked after)
    (ran : (operand token).run world = (.ok value, middle))
    (reason : ∀ count fault, blocked count fault → stuck (count + 1) fault) :
    Account operand (token :: operands) stuck (operand token >>= next) (asking operand token >>= next') world
      result (token :: asked) after where
  course := (courseAsk ran).andThen account.course
  front := (List.prefix_cons_inj token).mpr account.front
  success a same := by
    obtain ⟨whole, asks⟩ := account.success a same
    exact ⟨congrArg (token :: ·) whole, .onward ran asks⟩
  failure fault same := by
    rcases account.failure fault same with stopped | ⟨asks, ended⟩
    · exact .inl (.onward ran stopped)
    · exact .inr ⟨.onward ran asks, reason _ fault ended⟩

theorem Account.map {β : Type} {plain : Eval ω α} {logged : Eval (ω × List Text) α} {result : Except Fault α}
    (account : Account operand operands blocked plain logged world result asked after) (f : α → β) :
    Account operand operands blocked (plain >>= fun a => pure (f a)) (logged >>= fun a => pure (f a)) world
      (result.map f) asked after where
  course := account.course.map f
  front := account.front
  success b same := by
    obtain ⟨a, found, _⟩ := mapOk same
    exact account.success a found
  failure fault same := by
    cases result with
    | ok a => cases same
    | error other =>
      cases same
      exact account.failure fault rfl

end Account

def BlockedBehind (expression : Text) (words : List Text) (count : Nat) (fault : Fault) : Prop :=
  ∀ word, Blocked (.insufficientOperands expression.trim) (word :: words) (count + 1) fault

theorem reduceAccount (operand : Text → Eval ω Value) (expression : Text) (value : Value) (words : List Text)
    (world : ω) : ∃ result asked after, Account operand (operandsAmong words.tail) (BlockedBehind expression words)
      (reduce operand expression value words) (reduce (asking operand) expression value words) world result asked
      after := by
  fun_induction reduce operand expression value words generalizing world with
  | case1 value =>
    exact ⟨.ok value, [], world, Eval.courseQuiet (.ok value) world, List.prefix_rfl,
      fun _ _ => ⟨rfl, .nothing world⟩, fun fault same => by cases same⟩
  | case2 value symbol =>
    exact ⟨_, _, _, accountNothing (Eval.courseQuiet (.error _) world) fun word => .lacking rfl⟩
  | case3 value symbol right rest unknown =>
    simp only [reduce, unknown]
    have more : 2 < (symbol :: symbol :: right :: rest).length := by simp
    have strange (operator : Operator) : operator.symbol ≠ symbol := fun same => by
      simp [Operator.ofSymbolIff.mpr same] at unknown
    exact ⟨_, _, _, accountNothing (Eval.courseQuiet (.error _) world) fun word => .unknown rfl more strange⟩
  | case4 value symbol right rest operator known ih =>
    simp only [reduce, known, List.tail_cons, operandsCons]
    cases ran : (operand (Token.unwrapGroup right)).run world with
    | mk result middle =>
      cases result with
      | error fault => exact ⟨_, _, _, accountFailed ran⟩
      | ok other =>
        cases applied : operator.apply value other with
        | error fault =>
          -- The right operand has been evaluated before the operator refuses it.
          have ends : BlockedBehind expression (symbol :: right :: rest) 1 fault := by
            intro word
            obtain rfl := Operator.ofSymbolIff.mp known
            obtain ⟨apart, rfl⟩ := Operator.applyFault applied
            exact .misapplied rfl apart
          have refused : Account operand (operandsAmong rest.tail)
              (fun count fault => BlockedBehind expression (symbol :: right :: rest) (count + 1) fault)
              (Eval.ofExcept (operator.apply value other) >>= fun holds => reduce operand expression (.bool holds) rest)
              (Eval.ofExcept (operator.apply value other) >>= fun holds =>
                reduce (asking operand) expression (.bool holds) rest) middle (.error fault) [] middle := by
            rw [applied]
            exact accountNothing (Eval.courseQuiet (.error fault) middle) ends
          exact ⟨_, _, _, refused.behind ran fun _ _ blocked => blocked⟩
        | ok holds =>
          obtain ⟨result, asked, after, account⟩ := ih holds middle
          have onward : Account operand (operandsAmong rest.tail) (BlockedBehind expression rest)
              (Eval.ofExcept (operator.apply value other) >>= fun holds => reduce operand expression (.bool holds) rest)
              (Eval.ofExcept (operator.apply value other) >>= fun holds =>
                reduce (asking operand) expression (.bool holds) rest) middle result asked after := by
            rw [applied]
            exact account
          exact ⟨_, _, _, onward.behind ran fun _ _ blocked word => (blocked right).behind word symbol⟩

theorem evaluateUnread {expression : Text} {cause : SyntaxFault} (read : Token.operands expression = .error cause)
    (operand : Text → Eval ω Value) : evaluate operand expression = .fail (.malformed cause) := by
  rw [evaluateReduce, read]
  rfl

theorem evaluateShort {expression : Text} {words : List Text} (read : Token.operands expression = .ok words)
    (few : words.length = 0 ∨ words.length = 2) (operand : Text → Eval ω Value) :
    evaluate operand expression = .fail (.insufficientOperands expression.trim) := by
  rw [evaluateReduce, read]
  match words with
  | [] => rfl
  | [_, _] => rfl
  | [_] => simp at few
  | _ :: _ :: _ :: _ => simp at few

theorem evaluateLong {expression first : Text} {rest : List Text}
    (read : Token.operands expression = .ok (first :: rest)) (enough : rest.length ≠ 1)
    (operand : Text → Eval ω Value) (world : ω) :
    ∃ result asked after, Account operand (operandsAmong (first :: rest)) (Ends expression)
      (evaluate operand expression) (evaluate (asking operand) expression) world result asked after := by
  rw [evaluateWords operand read enough, evaluateWords (asking operand) read enough, operandsCons]
  cases ran : (operand (Token.unwrapGroup first)).run world with
  | mk result middle =>
    cases result with
    | error fault => exact ⟨_, _, _, accountFailed ran⟩
    | ok value =>
      have long : (first :: rest).length ≠ 2 := by simpa using enough
      obtain ⟨result, asked, after, account⟩ := reduceAccount operand expression value rest middle
      exact ⟨_, _, _, (account.map Value.truth).behind ran fun _ _ blocked => .later read long (blocked first)⟩

theorem evaluateAccount (operand : Text → Eval ω Value) (expression : Text) (world : ω) :
    ∃ result asked after, Account operand (operandsOf expression) (Ends expression) (evaluate operand expression)
      (evaluate (asking operand) expression) world result asked after := by
  unfold operandsOf
  cases read : Token.operands expression with
  | error cause =>
    rw [evaluateUnread read, evaluateUnread read]
    exact ⟨_, _, _, accountNothing (Eval.courseQuiet (.error _) world) (.unread read)⟩
  | ok words =>
    by_cases few : words.length = 0 ∨ words.length = 2
    · rw [evaluateShort read few, evaluateShort read few]
      exact ⟨_, _, _, accountNothing (Eval.courseQuiet (.error _) world) (.short read few)⟩
    · cases words with
      | nil => simp at few
      | cons first rest =>
        have enough : rest.length ≠ 1 := by simpa using few
        exact evaluateLong read enough operand world

theorem strictLeftFold (operand : Text → Eval ω Value) (expression : Text) :
    evaluate operand expression = folded operand expression ∧
    ∀ world, ∃ result asked after, Account operand (operandsOf expression) (Ends expression)
      (evaluate operand expression) (evaluate (asking operand) expression) world result asked after :=
  ⟨evaluateFolded operand expression, evaluateAccount operand expression⟩

end Sigil.Condition
