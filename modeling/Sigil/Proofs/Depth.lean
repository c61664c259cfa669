import Sigil.Proofs.Parallel
import Sigil.Proofs.Reach
import Sigil.Proofs.Step

/-! When calls stand too deep inside each other. A step fails for the depth of its calls exactly when the evaluation
reaches a call inside as many others as the limit allows; each of these has a mark of its own in the line. -/
namespace Sigil

variable {ω α β : Type}

namespace Eval

def Exceeds (computation : Eval ω α) (state : ω) : Prop :=
  ∃ limit, (computation.run state).1 = .error (.callDepthExceeded limit)

theorem exceedsPure (a : α) (state : ω) : ¬(pure a : Eval ω α).Exceeds state := by
  rintro ⟨limit, h⟩
  simp at h

theorem exceedsFail {fault : Fault} (state : ω) (other : ∀ limit, fault ≠ .callDepthExceeded limit) :
    ¬(fail fault : Eval ω α).Exceeds state := by
  rintro ⟨limit, h⟩
  simp only [runFail, Except.error.injEq] at h
  exact other limit h

theorem exceedsOfExcept {result : Except Fault α} (state : ω)
    (other : ∀ limit, result ≠ .error (.callDepthExceeded limit)) : ¬(ofExcept result : Eval ω α).Exceeds state :=
  fun ⟨limit, h⟩ => other limit h

theorem exceedsBind (first : Eval ω α) (next : α → Eval ω β) (state : ω) :
    (first >>= next).Exceeds state ↔
      first.Exceeds state ∨ ∃ a middle, first.run state = (.ok a, middle) ∧ (next a).Exceeds middle := by
  unfold Exceeds
  rw [runBind]
  cases first.run state with
  | mk result middle => cases result <;> simp

theorem exceedsBindSafe {first : Eval ω α} {next : α → Eval ω β} {state : ω}
    (safe : ∀ a middle, ¬(next a).Exceeds middle) : (first >>= next).Exceeds state ↔ first.Exceeds state := by
  rw [exceedsBind, or_iff_left]
  rintro ⟨a, middle, _, exceeds⟩
  exact safe a middle exceeds

theorem exceedsOfExceptBind {result : Except Fault α} {next : α → Eval ω β} {state : ω}
    (other : ∀ limit, result ≠ .error (.callDepthExceeded limit)) :
    (ofExcept result >>= next).Exceeds state ↔ ∃ a, result = .ok a ∧ (next a).Exceeds state := by
  rw [exceedsBind, or_iff_right (exceedsOfExcept state other)]
  simp only [runOfExcept, Prod.mk.injEq]
  constructor
  · rintro ⟨a, _, ⟨same, rfl⟩, exceeds⟩
    exact ⟨a, same, exceeds⟩
  · rintro ⟨a, same, exceeds⟩
    exact ⟨a, state, ⟨same, rfl⟩, exceeds⟩

theorem exceedsMapM (f : α → Eval ω β) (xs : List α) (state : ω) :
    (xs.mapM f).Exceeds state ↔ ∃ x reached, Comes f xs state x reached ∧ (f x).Exceeds reached := by
  induction xs generalizing state with
  | nil =>
    rw [List.mapM_nil]
    refine iff_of_false (exceedsPure [] state) ?_
    rintro ⟨_, _, comes, _⟩
    cases comes
  | cons y ys ih =>
    have rest middle b : (ys.mapM f >>= fun found => pure (b :: found)).Exceeds middle ↔
        ∃ x reached, Comes f ys middle x reached ∧ (f x).Exceeds reached := by
      rw [exceedsBindSafe fun found after => exceedsPure _ after, ih middle]
    simp only [List.mapM_cons, exceedsBind (f y), rest]
    constructor
    · rintro (here | ⟨b, middle, ran, x, reached, comes, exceeds⟩)
      · exact ⟨y, state, .head, here⟩
      · exact ⟨x, reached, .tail ran comes, exceeds⟩
    · rintro ⟨x, reached, comes, exceeds⟩
      cases comes with
      | head => exact .inl exceeds
      | @tail _ _ _ b _ middle _ ran later => exact .inr ⟨b, middle, ran, x, reached, later, exceeds⟩

end Eval

namespace Operand

theorem ofTokenMarked {token rest : Text} (marked : token.trim = '!' :: rest) :
    ofToken token = .ok (.nested token.trim) := by
  rw [ofToken, marked]
  exact ofTrimmedSigned (by decide) rest

theorem ofTokenUnmarked {token text : Text} (unmarked : ∀ rest, token.trim ≠ '!' :: rest) :
    ofToken token ≠ .ok (.nested text) := by
  intro kind
  unfold ofToken ofTrimmed at kind
  split at kind
  · simp at kind
  · split at kind
    · unfold ofInteger at kind
      split at kind <;> simp at kind
    · split at kind
      · unfold ofDecimal at kind
        split at kind <;> simp at kind
      · split at kind
        · simp at kind
        · unfold ofString at kind
          split at kind <;> simp at kind
        · rename_i rest start
          exact unmarked rest start
        · simp at kind

end Operand

namespace Scope
variable {scope : Scope ω}

theorem exceedsInvoke (call : Call) (arguments : Eval (Nested ω) (List Value)) (state : Nested ω) :
    (scope.invoke call arguments).Exceeds state ↔ (∃ function,
      scope.registry.resolve call.module call.name = .ok function ∧
      function.arity.Admits call.args.length) ∧ arguments.Exceeds state := by
  have resolves limit : scope.registry.resolve call.module call.name ≠ .error (.callDepthExceeded limit) := by
    intro h
    unfold Registry.resolve at h
    split at h
    · simp at h
    · split at h <;> simp at h
  have fits (arity : Arity) limit :
      arity.check call.module call.name call.args.length ≠ .error (.callDepthExceeded limit) := by
    intro h
    cases Arity.checkFails.mp h
  refine (Eval.exceedsOfExceptBind resolves).trans ⟨?_, ?_⟩
  · rintro ⟨function, resolved, exceeds⟩
    obtain ⟨_, fit, exceeds⟩ := (Eval.exceedsOfExceptBind (fits function.arity)).mp exceeds
    refine ⟨⟨function, resolved, Arity.checkPasses.mp fit⟩, (Eval.exceedsBindSafe fun args middle => ?_).mp exceeds⟩
    rintro ⟨limit, h⟩
    simp only [Eval.run] at h
    split at h <;> simp at h
  · rintro ⟨⟨function, resolved, fit⟩, exceeds⟩
    refine ⟨function, resolved, ?_⟩
    refine (Eval.exceedsOfExceptBind (fits function.arity)).mpr ⟨(), Arity.checkPasses.mpr fit, ?_⟩
    exact (Eval.exceedsBind _ _ _).mpr (.inl exceeds)

theorem exceedsCall (call : Call) (state : Nested ω) :
    (scope.call call).Exceeds state ↔
      ∃ arg reached, scope.Reaches call state arg reached ∧ (scope.value arg).Exceeds reached := by
  rw [Scope.call, exceedsInvoke, Eval.exceedsMapM]
  constructor
  · rintro ⟨callable, arg, reached, comes, exceeds⟩
    exact ⟨arg, reached, ⟨callable, comes⟩, exceeds⟩
  · rintro ⟨arg, reached, ⟨callable, comes⟩, exceeds⟩
    exact ⟨callable, arg, reached, comes, exceeds⟩

theorem exceedsUnmarked {token : Text} (unmarked : ∀ rest, token.trim ≠ '!' :: rest) (state : Nested ω) :
    ¬(scope.value token).Exceeds state := by
  rw [valueEq]
  split
  · rename_i fault read
    refine Eval.exceedsFail state fun limit same => ?_
    rcases Operand.ofTokenFault read with ⟨_, rfl⟩ | ⟨_, rfl⟩ <;> simp at same
  · exact Eval.exceedsPure _ state
  · refine Eval.exceedsOfExcept state fun limit h => ?_
    unfold Store.read at h
    split at h
    · simp at h
    · split at h <;> simp at h
  · rename_i kind
    exact absurd kind (Operand.ofTokenUnmarked unmarked)

theorem exceedsMarked {token rest : Text} (marked : token.trim = '!' :: rest) (state : Nested ω) :
    (scope.value token).Exceeds state ↔ scope.limit ≤ state.depth ∨ ∃ call, Statement.parseCall token.trim = .ok call ∧
      (scope.call call).Exceeds { state with depth := state.depth + 1 } := by
  rw [valueEq, Operand.ofTokenMarked marked]
  refine (Eval.exceedsBind _ _ _).trans ?_
  by_cases full : scope.limit ≤ state.depth
  · have refused : scope.checkDepth.Exceeds state := ⟨scope.limit, by simp [Eval.run, checkDepth, full]⟩
    exact iff_of_true (.inl refused) (.inl full)
  · have passed : scope.checkDepth.run state = (.ok (), state) := by simp [Eval.run, checkDepth, full]
    have free : ¬scope.checkDepth.Exceeds state := by simp [Eval.Exceeds, passed]
    rw [or_iff_right free, or_iff_right full, passed]
    constructor
    · rintro ⟨_, _, same, exceeds⟩
      cases same
      split at exceeds
      · exact absurd exceeds (Eval.exceedsFail _ (by simp))
      · rename_i call parsed
        exact ⟨call, parsed, exceeds⟩
    · rintro ⟨call, parsed, exceeds⟩
      refine ⟨(), state, rfl, ?_⟩
      rw [parsed]
      exact exceeds

theorem exceedsIff {token : Text} {state : Nested ω} {opened : Nat} (room : state.depth + opened = scope.limit) :
    (scope.value token).Exceeds state ↔ scope.Meets token state opened := by
  constructor
  · intro exceeds
    induction token using Operand.tokenInduction generalizing state opened with
    | step token ih =>
      by_cases unmarked : ∀ rest, token.trim ≠ '!' :: rest
      · exact absurd exceeds (exceedsUnmarked unmarked state)
      · obtain ⟨rest, marked⟩ : ∃ rest, token.trim = '!' :: rest := by simpa using unmarked
        cases opened with
        | zero => exact .here marked
        | succ opened =>
          rcases (exceedsMarked marked state).mp exceeds with full | ⟨call, parsed, inside⟩
          · omega
          · obtain ⟨arg, reached, reaches, exceeds⟩ := (exceedsCall call _).mp inside
            have depth : reached.depth = state.depth + 1 := reaches.comes.depth scope.tameValue
            refine .inside marked parsed reaches ?_
            exact ih _ call (Operand.ofTokenMarked marked) parsed arg reaches.comes.member (by omega) exceeds
  · intro meets
    induction meets with
    | here marked => exact (exceedsMarked marked _).mpr (.inl (by omega))
    | @inside token rest arg call state reached opened marked parsed reaches meets ih =>
      have depth : reached.depth = state.depth + 1 := reaches.comes.depth scope.tameValue
      have exceeds := ih (by omega)
      have inside := (exceedsCall call _).mpr ⟨arg, reached, reaches, exceeds⟩
      exact (exceedsMarked marked _).mpr (.inr ⟨call, parsed, inside⟩)

theorem exceedsBound (token : Text) (state : Nested ω) :
    (scope.bound token).Exceeds state ↔ (scope.value token).Exceeds state := by
  refine Eval.exceedsBindSafe fun value middle => ?_
  split
  · exact Eval.exceedsPure _ middle
  · exact Eval.exceedsFail middle (by simp)

end Scope

theorem Condition.exceedsReduce (operand : Text → Eval ω Value) (expression : Text) (value : Value) (words : List Text)
    (state : ω) : (reduce operand expression value words).Exceeds state ↔
      ∃ token reached, Comes operand value words state token reached ∧ (operand token).Exceeds reached := by
  fun_induction reduce operand expression value words generalizing state with
  | case1 value =>
    refine iff_of_false (Eval.exceedsPure value state) ?_
    rintro ⟨_, _, comes, _⟩
    cases comes
  | case2 =>
    refine iff_of_false (Eval.exceedsFail state (by simp)) ?_
    rintro ⟨_, _, comes, _⟩
    cases comes
  | case3 value symbol right rest unknown =>
    refine iff_of_false (Eval.exceedsFail state (by simp)) ?_
    rintro ⟨_, _, comes, _⟩
    cases comes with
    | next known => simp [unknown] at known
    | later known => simp [unknown] at known
  | case4 value symbol right rest operator known ih =>
    have applies other limit : operator.apply value other ≠ .error (.callDepthExceeded limit) := by
      intro refused
      simpa using (Operator.applyFault refused).2
    rw [Eval.exceedsBind]
    constructor
    · rintro (here | ⟨other, middle, ran, exceeds⟩)
      · exact ⟨_, state, .next known, here⟩
      · obtain ⟨result, applied, exceeds⟩ := (Eval.exceedsOfExceptBind (applies other)).mp exceeds
        obtain ⟨token, reached, comes, exceeds⟩ := (ih result middle).mp exceeds
        exact ⟨token, reached, .later known ran applied comes, exceeds⟩
    · rintro ⟨token, reached, comes, exceeds⟩
      cases comes with
      | next _ => exact .inl exceeds
      | @later _ other _ _ _ _ found result _ middle _ same ran applied later =>
        cases known.symm.trans same
        refine .inr ⟨other, middle, ran, (Eval.exceedsOfExceptBind (applies other)).mpr ⟨result, applied, ?_⟩⟩
        exact (ih result middle).mpr ⟨token, reached, later, exceeds⟩

theorem Condition.exceedsShort (operand : Text → Eval ω Value) {condition : Text}
    (short : ¬∃ first rest, Token.operands condition = .ok (first :: rest) ∧ rest.length ≠ 1) (state : ω) :
    ¬(evaluate operand condition).Exceeds state := by
  rw [evaluateReduce]
  cases read : Token.operands condition with
  | error cause => exact Eval.exceedsFail state (by simp)
  | ok words =>
    match words with
    | [] => exact Eval.exceedsFail state (by simp)
    | [_, _] => exact Eval.exceedsFail state (by simp)
    | [first] => exact absurd ⟨first, [], read, by simp⟩ short
    | first :: second :: third :: rest => exact absurd ⟨first, second :: third :: rest, read, by simp⟩ short

namespace Scope
variable {scope : Scope ω}

theorem exceedsCondition (label condition : Text) (state : Nested ω) :
    (Condition.evaluate scope.value condition).Exceeds state ↔ ∃ token reached,
      scope.Evaluates state (.conditional label condition) token reached ∧ (scope.value token).Exceeds reached := by
  by_cases enough : ∃ first rest, Token.operands condition = .ok (first :: rest) ∧ rest.length ≠ 1
  · obtain ⟨first, rest, read, enough⟩ := enough
    have reduced value middle : (Condition.reduce scope.value condition value rest >>= fun found =>
        pure found.truth).Exceeds middle ↔ _ :=
      (Eval.exceedsBindSafe fun _ after => Eval.exceedsPure _ after).trans (Condition.exceedsReduce _ _ _ _ _)
    rw [Condition.evaluateWords scope.value read enough, Eval.exceedsBind]
    constructor
    · rintro (here | ⟨value, middle, ran, exceeds⟩)
      · exact ⟨_, state, .first label read enough, here⟩
      · obtain ⟨token, reached, comes, exceeds⟩ := (reduced value middle).mp exceeds
        exact ⟨token, reached, .right label read enough ran comes, exceeds⟩
    · rintro ⟨token, reached, evaluates, exceeds⟩
      cases evaluates with
      | first label again enough =>
        cases read.symm.trans again
        exact .inl exceeds
      | @right _ _ _ _ value middle _ _ again enough ran comes =>
        cases read.symm.trans again
        exact .inr ⟨value, middle, ran, (reduced value middle).mpr ⟨token, reached, comes, exceeds⟩⟩
  · refine iff_of_false (Condition.exceedsShort scope.value enough state) ?_
    rintro ⟨token, reached, evaluates, exceeds⟩
    cases evaluates with
    | @first _ first rest _ read few => exact enough ⟨first, rest, read, few⟩
    | @right _ first _ rest _ _ _ _ read few => exact enough ⟨first, rest, read, few⟩

theorem findingsExceed (statement : Statement) (state : Nested ω) :
    (scope.findings statement).Exceeds state ↔
      ∃ token reached, scope.Evaluates state statement token reached ∧ (scope.value token).Exceeds reached := by
  cases statement with
  | call call =>
    refine (Eval.exceedsBindSafe fun _ middle => Eval.exceedsPure _ middle).trans ((exceedsCall call state).trans ?_)
    constructor
    · rintro ⟨arg, reached, reaches, exceeds⟩
      exact ⟨arg, reached, .argument reaches, exceeds⟩
    · rintro ⟨arg, reached, ⟨reaches⟩, exceeds⟩
      exact ⟨arg, reached, reaches, exceeds⟩
  | assign assignment =>
    constructor
    · intro exceeds
      exact ⟨_, state, .value assignment, exceeds⟩
    · rintro ⟨_, _, ⟨⟩, exceeds⟩
      exact exceeds
  | openLoop name lower upper =>
    have second (low : Int64) middle : (scope.bound upper >>= fun high => pure (low, high)).Exceeds middle ↔
        (scope.value upper).Exceeds middle :=
      (Eval.exceedsBindSafe fun _ after => Eval.exceedsPure _ after).trans (exceedsBound upper middle)
    refine (Eval.exceedsBind _ _ _).trans ⟨?_, ?_⟩
    · rintro (first | ⟨low, middle, ran, exceeds⟩)
      · exact ⟨lower, state, .lower name lower upper, (exceedsBound lower state).mp first⟩
      · exact ⟨upper, middle, .upper name upper ran, (second low middle).mp exceeds⟩
    · rintro ⟨token, reached, evaluates, exceeds⟩
      cases evaluates with
      | lower => exact .inl ((exceedsBound lower state).mpr exceeds)
      | @upper _ low _ _ _ ran => exact .inr ⟨low, reached, ran, (second low reached).mpr exceeds⟩
  | conditional label condition => exact exceedsCondition label condition state
  | loopBack name =>
    refine iff_of_false (Eval.exceedsPure _ state) ?_
    rintro ⟨_, _, evaluates, _⟩
    cases evaluates
  | nothing =>
    refine iff_of_false (Eval.exceedsPure _ state) ?_
    rintro ⟨_, _, evaluates, _⟩
    cases evaluates

end Scope

theorem Fault.recursionIff {fault : Fault} :
    fault.kind = .recursionError ↔ ∃ limit, fault = .callDepthExceeded limit := by
  cases fault with
  | malformed cause => cases ends : cause.atLineEnd <;> simp [kind, ends]
  | _ => simp [kind]

namespace Machine
variable {machine : Machine ω}

def Overruns (machine : Machine ω) : Prop :=
  ∃ report, machine.step.1 = .error report ∧ report.fault.kind = .recursionError

/- The next step evaluates a token in which it reaches a call inside as many others as a limit allows. A call that is
a statement of its own is not counted among these. -/
def Overreaches (machine : Machine ω) (limit : Nat) : Prop :=
  machine.status = .running ∧ ∃ line statement token reached, machine.line? machine.counter = some line ∧
    Statement.parse line = .ok statement ∧ machine.scope.Evaluates ⟨0, machine.world⟩ statement token reached ∧
    machine.scope.Meets token reached limit

theorem concludeFault {statement : Statement} {found : statement.Finding} {fault : Fault}
    (h : (machine.conclude statement found).1 = .error fault) (limit : Nat) : fault ≠ .callDepthExceeded limit := by
  cases statement with
  | call call => simp [conclude, effect] at h
  | assign assignment =>
    rcases (Store.assignRefused (Prod.ext h rfl)).2 with rfl | ⟨_, rfl⟩ <;> simp
  | openLoop name lower upper =>
    rcases (Store.openRefused (Prod.ext h rfl)).2 with rfl | ⟨_, rfl⟩ <;> simp
  | loopBack name =>
    simp only [conclude, effect] at h
    split at h
    · rename_i refused
      cases h
      rcases (Store.loopBackRefused refused).2 with rfl | ⟨_, rfl⟩ | ⟨rfl, _⟩ <;> simp
    · simp at h
    · simp at h
  | conditional label condition =>
    simp only [conclude, effect] at h
    split at h
    · simp at h
    · split at h
      · cases h
        simp
      · simp at h
  | nothing => simp [conclude, effect] at h

theorem executeExceeds (machine : Machine ω) (line : Text) :
    (∃ limit, (machine.execute line).1 = .error (.callDepthExceeded limit)) ↔ ∃ statement,
      Statement.parse line = .ok statement ∧
        (machine.scope.findings statement).Exceeds ⟨machine.depth, machine.world⟩ := by
  rw [executeEq]
  cases Statement.parse line with
  | error cause => simp
  | ok statement =>
    simp only [Except.ok.injEq, exists_eq_left', evaluateThen, evaluate, Eval.Exceeds]
    cases (machine.scope.findings statement).run ⟨machine.depth, machine.world⟩ with
    | mk result after =>
      cases result with
      | error fault => simp
      | ok found =>
        refine iff_of_false ?_ (by simp)
        rintro ⟨limit, h⟩
        exact concludeFault h limit rfl

theorem overrunsExecuting {line : Text} (running : machine.status = .running)
    (here : machine.line? machine.counter = some line) :
    machine.Overruns ↔ ∃ limit, (machine.execute line).1 = .error (.callDepthExceeded limit) := by
  unfold Overruns
  cases ran : machine.execute line with
  | mk result after =>
    cases result with
    | ok => rw [stepOk running here ran]; simp
    | error fault => rw [stepError running here ran]; simp [Fault.recursionIff]

theorem overrunsIff (top : machine.depth = 0) :
    machine.Overruns ↔ machine.Overreaches machine.settings.maxCallDepth := by
  by_cases running : machine.status = .running
  · cases here : machine.line? machine.counter with
    | none => simp [Overruns, Overreaches, step, running, here]
    | some line =>
      have room {statement : Statement} {token : Text} {reached : Nested ω}
          (evaluates : machine.scope.Evaluates ⟨0, machine.world⟩ statement token reached) :
          reached.depth + machine.settings.maxCallDepth = machine.scope.limit := by
        rw [evaluates.depth, Nat.zero_add]
        rfl
      rw [overrunsExecuting running here, executeExceeds, top]
      constructor
      · rintro ⟨statement, parsed, exceeds⟩
        obtain ⟨token, reached, evaluates, exceeds⟩ := (Scope.findingsExceed statement _).mp exceeds
        have meets := (Scope.exceedsIff (room evaluates)).mp exceeds
        exact ⟨running, line, statement, token, reached, here, parsed, evaluates, meets⟩
      · rintro ⟨_, other, statement, token, reached, there, parsed, evaluates, meets⟩
        cases here.symm.trans there
        have exceeds := (Scope.exceedsIff (room evaluates)).mpr meets
        exact ⟨statement, parsed, (Scope.findingsExceed statement _).mpr ⟨token, reached, evaluates, exceeds⟩⟩
  · refine iff_of_false ?_ fun overreaches => running overreaches.1
    rintro ⟨report, h, _⟩
    rw [stepEnded running] at h
    simp at h

theorem Overreaches.marks {limit : Nat} (overreaches : machine.Overreaches limit) :
    ∃ line ∈ machine.lines, limit < line.count '!' := by
  obtain ⟨_, line, statement, token, reached, here, parsed, evaluates, meets⟩ := overreaches
  have inside := (Statement.holdsSublist parsed evaluates.holds).count_le '!'
  refine ⟨line, ?_, Nat.lt_of_lt_of_le meets.marks inside⟩
  cases number : machine.counter with
  | zero => simp [number, line?] at here
  | succ index =>
    rw [number] at here
    exact Array.mem_of_getElem? here

end Machine
end Sigil
