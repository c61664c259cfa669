import Mathlib.Algebra.Group.Int.Defs
import Sigil.Proofs.Invariant
import Sigil.Proofs.RoundTrip

/-! Whole numbers written in a program. Digits with or without a minus sign are stored as the number that they spell,
or they are refused if it is no machine word, although those with a sign are read later and by another reader. What an
integer becomes as a string is read back as the same integer. -/
namespace Sigil

namespace Text

theorem plainEnclosed {text : Text} (plain : ∀ c ∈ text, isBlank c = false ∧ c ≠ '"' ∧ c ≠ '(' ∧ c ≠ ')') :
    Token.Enclosed text := by
  constructor
  case trimmed =>
    cases text with
    | nil => rfl
    | cons c rest =>
      have visible := (plain c List.mem_cons_self).1
      have ends : trimEnd (c :: rest) = c :: rest := by
        refine endsVisible (List.cons_ne_nil c rest) fun front d same => (plain d ?_).1
        simp [same]
      rw [Trimmed, trimVisible visible, ← trimEndCons visible, ends]
  case balanced =>
    induction text with
    | nil => exact .nil
    | cons c rest ih =>
      exact .plain (plain c List.mem_cons_self).2 (ih fun d member => plain d (List.mem_cons_of_mem c member))

theorem wordCharPlain {c : Char} (word : isWordChar c = true) : c ≠ '"' ∧ c ≠ '(' ∧ c ≠ ')' := by
  refine ⟨?_, ?_, ?_⟩ <;> rintro rfl <;> revert word <;> decide +kernel

theorem referenceEnclosed {name : Text} (identifier : isIdentifier name = true) : Token.Enclosed ('$' :: name) := by
  refine plainEnclosed fun c member => ?_
  rcases List.mem_cons.mp member with rfl | inside
  · decide
  · have word := (identifierChars identifier).2 c inside
    exact ⟨wordCharVisible word, wordCharPlain word⟩

end Text

namespace Numeral

def placeValue : Text → Nat
  | [] => 0
  | c :: rest => (c.toNat - '0'.toNat) * 10 ^ rest.length + placeValue rest

inductive Spells : Text → Int → Prop where
  | plain {digits : Text} (all : isDigits digits = true) : Spells digits (placeValue digits)
  | minus {digits : Text} (all : isDigits digits = true) : Spells ('-' :: digits) (-placeValue digits)

def Fits (n : Int) : Prop := -2 ^ 63 ≤ n ∧ n < 2 ^ 63

instance (n : Int) : Decidable (Fits n) := inferInstanceAs (Decidable (_ ∧ _))

theorem readNatPlaced {digits : Text} (all : isDigits digits = true) : readNat digits = some (placeValue digits) := by
  have placed : ∀ text, Nat.ofDigitChars 10 text 0 = placeValue text := by
    intro text
    induction text with
    | nil => rfl
    | cons c rest ih =>
      rw [Nat.ofDigitChars_cons, Nat.ofDigitChars_eq_ofDigitChars_zero, ih, Nat.mul_zero, Nat.zero_add, Nat.mul_comm]
      rfl
  rw [readNat, if_pos all, placed]

theorem digitPlain {c : Char} (digit : c.isDigit = true) : Text.isBlank c = false ∧ c ≠ '"' ∧ c ≠ '(' ∧ c ≠ ')' := by
  have range : 48 ≤ c.toNat ∧ c.toNat ≤ 57 := by
    simp only [Char.isDigit, Bool.and_eq_true, decide_eq_true_eq] at digit
    exact digit
  have visible : Text.isBlank c = false := by
    simp only [Text.isBlank, Text.withinRanges, Text.blankRanges, Bool.and_eq_false_iff, Bool.or_eq_false_iff,
      decide_eq_false_iff_not]
    omega
  refine ⟨visible, ?_, ?_, ?_⟩ <;> rintro rfl <;> simp at digit

theorem digitsPlain {digits : Text} (all : isDigits digits = true) : digits ≠ [] ∧ ∀ c ∈ digits, c.isDigit = true := by
  simpa [isDigits] using all

theorem writtenSpells (n : Int) : Spells (writeInt n) n := by
  have value (m : Nat) : placeValue (writeNat m) = m := by
    have read := readNatPlaced (isDigitsWriteNat m)
    rw [readNatWriteNat] at read
    exact (Option.some.inj read).symm
  cases n with
  | ofNat m =>
    have spells := Spells.plain (isDigitsWriteNat m)
    rwa [value] at spells
  | negSucc m =>
    have spells := Spells.minus (isDigitsWriteNat (m + 1))
    rwa [value, Int.natCast_add_one, ← Int.negSucc_eq] at spells

namespace Spells
variable {text : Text} {n : Int}

theorem enclosed (spells : Spells text n) : Token.Enclosed text := by
  cases spells with
  | plain all => exact Text.plainEnclosed fun c member => digitPlain ((digitsPlain all).2 c member)
  | minus all =>
    refine Text.plainEnclosed fun c member => ?_
    rcases List.mem_cons.mp member with rfl | inside
    · decide
    · exact digitPlain ((digitsPlain all).2 c inside)

theorem readInt (spells : Spells text n) : readInt text = some n := by
  cases spells with
  | plain all =>
    unfold Numeral.readInt
    split
    · simp [isDigits] at all
    · simp [isDigits] at all
    · rw [readNatPlaced all]
      rfl
  | minus all =>
    rw [Numeral.readInt, readNatPlaced all]
    rfl

theorem readWord (spells : Spells text n) (fits : Fits n) :
    ∃ word : Int64, word.toInt = n ∧ readInt64 text = some word := by
  have within : Int64.minValue.toInt ≤ n ∧ n ≤ Int64.maxValue.toInt := by
    rw [Int64.toInt_minValue, Int64.toInt_maxValue]
    exact ⟨fits.1, Int.le_sub_one_of_lt fits.2⟩
  refine ⟨Int64.ofInt n, Int64.toInt_ofInt_of_le fits.1 fits.2, ?_⟩
  simp only [readInt64, spells.readInt, if_pos within]

theorem readNothing (spells : Spells text n) (large : ¬Fits n) : readInt64 text = none := by
  have outside : ¬(Int64.minValue.toInt ≤ n ∧ n ≤ Int64.maxValue.toInt) := by
    rw [Int64.toInt_minValue, Int64.toInt_maxValue]
    exact fun within => large ⟨within.1, Int.lt_of_le_sub_one within.2⟩
  simp only [readInt64, spells.readInt, if_neg outside]

end Spells

end Numeral

theorem Value.writtenCoerced (word : Int64) :
    (Value.str (Numeral.writeInt64 word)).coerce .integer = some (.int word) := by
  have trimmed : (Numeral.writeInt64 word).trim = Numeral.writeInt64 word :=
    (Numeral.writtenSpells word.toInt).enclosed.trimmed
  rw [coerce, toInt64?, trimmed, Numeral.readInt64WriteInt64]
  rfl

namespace Operand

theorem ofTrimmedDigits {digits : Text} (all : Numeral.isDigits digits = true) :
    ofTrimmed digits = ofInteger digits := by
  have word : Value.readBool digits = none := by
    have other (text : Text) (letters : Numeral.isDigits text = false) : digits ≠ text := by
      rintro rfl
      simp [letters] at all
    rw [Value.readBool, if_neg (other _ (by decide)), if_neg (other _ (by decide))]
  simp only [ofTrimmed, word, all, if_true]

end Operand

namespace Store
variable {store : Store} {name : Text} {type : ValueType}

def value? (store : Store) (name : Text) : Option Value := (store.get? name).bind Variable.data

def Admits (store : Store) (name : Text) (type : ValueType) : Prop :=
  ∀ cell, store.get? name = some cell → cell.type = type ∧ cell.hasFlag Variable.constFlag = false

theorem Admits.cell (admits : store.Admits name type) :
    (store.cell name type).type = type ∧ (store.cell name type).hasFlag Variable.constFlag = false := by
  cases held : store.get? name with
  | none =>
    rw [Store.cell, held]
    exact ⟨rfl, rfl⟩
  | some cell =>
    rw [cellOf held]
    exact admits cell held

theorem readValue {value : Value} (held : store.value? name = some value) : store.read name = .ok value := by
  obtain ⟨cell, found, data⟩ := Option.bind_eq_some_iff.mp held
  simp only [read, found, data]

theorem valuePut (cell : Variable) : (store.put name cell).value? name = cell.data := by
  rw [value?, getPut, if_pos rfl]
  rfl

theorem valueTaken (name : Text) (type : ValueType) :
    (store.put name (store.cell name type)).value? name = store.value? name := by
  rw [valuePut, value?]
  cases held : store.get? name with
  | none =>
    rw [Store.cell, held]
    rfl
  | some cell =>
    rw [cellOf held]
    rfl

theorem Admits.unlocked (admits : store.Admits name type) :
    ¬(((store.cell name type).hasFlag Variable.constFlag || [].contains Variable.constFlag) &&
      (store.cell name type).data.isSome) = true := by
  simp [admits.cell.2]

theorem assignFits (admits : store.Admits name type) {value stored : Value} (fits : value.coerce type = some stored) :
    store.assign name type [] value =
      (.ok (), store.put name { store.cell name type with data := some stored }) := by
  have coerced : value.coerce (store.cell name type).type = some stored := by rw [admits.cell.1, fits]
  simp only [assign, if_neg (not_not.mpr admits.cell.1), if_neg admits.unlocked, coerced]
  rfl

theorem assignMisfit (admits : store.Admits name type) {value : Value} (misfit : value.coerce type = none) :
    ∃ cause, store.assign name type [] value =
      (.error (.typeMismatch cause), store.put name (store.cell name type)) := by
  have coerced : value.coerce (store.cell name type).type = none := by rw [admits.cell.1, misfit]
  simp only [assign, if_neg (not_not.mpr admits.cell.1), if_neg admits.unlocked, coerced]
  exact ⟨_, rfl⟩

theorem openFits (admits : store.Admits name .integer) (lower upper : Int64) (resume : Nat) :
    store.openLoop name lower upper resume =
      (.ok (), store.put name ({ (store.cell name .integer).addFlags [Variable.loopFlag] with
        data := some (.int lower) }.withLoop ⟨upper, Int64.ofNat resume⟩)) := by
  have unlocked : ¬((store.cell name .integer).hasFlag Variable.constFlag &&
      (store.cell name .integer).data.isSome) = true := by simp [admits.cell.2]
  simp only [openLoop, if_neg (not_not.mpr admits.cell.1), if_neg unlocked]

end Store

namespace Scope
variable {ω : Type} {text : Text} {n : Int}

theorem valueSpelled (scope : Scope ω) (spells : Numeral.Spells text n) :
    (∃ value, scope.value text = pure value ∧ value.toInt64? = Numeral.readInt64 text) ∨
    Numeral.readInt64 text = none ∧ ∃ cause, scope.value text = .fail (.typeMismatch cause) := by
  have trimmed : text.trim = text := spells.enclosed.trimmed
  rw [valueEq, Operand.ofToken, trimmed]
  cases spells with
  | plain all =>
    rw [Operand.ofTrimmedDigits all, Operand.ofInteger]
    cases read : Numeral.readInt64 text with
    | some word => exact .inl ⟨.int word, rfl, rfl⟩
    | none => exact .inr ⟨rfl, _, rfl⟩
  | @minus digits all =>
    have kind : Operand.ofTrimmed ('-' :: digits) = .ok (.literal (.str ('-' :: digits))) :=
      Operand.ofTrimmedSigned (by decide) digits
    rw [kind]
    exact .inl ⟨.str ('-' :: digits), rfl, by rw [Value.toInt64?, trimmed]⟩

theorem boundFits (scope : Scope ω) (spells : Numeral.Spells text n) (fits : Numeral.Fits n) :
    ∃ word : Int64, word.toInt = n ∧ scope.bound text = pure word := by
  obtain ⟨word, same, read⟩ := spells.readWord fits
  refine ⟨word, same, ?_⟩
  rcases scope.valueSpelled spells with ⟨value, given, asked⟩ | ⟨nothing, _⟩
  · rw [bound, given, pure_bind, asked, read]
  · simp [read] at nothing

theorem boundRefused (scope : Scope ω) (spells : Numeral.Spells text n) (large : ¬Numeral.Fits n) :
    ∃ cause, scope.bound text = .fail (.typeMismatch cause) := by
  rcases scope.valueSpelled spells with ⟨value, given, asked⟩ | ⟨_, cause, failed⟩
  · rw [bound, given, pure_bind, asked, spells.readNothing large]
    exact ⟨_, rfl⟩
  · rw [bound, failed]
    exact ⟨cause, rfl⟩

theorem valueReference (scope : Scope ω) {name : Text} {value : Value} (identifier : Text.isIdentifier name = true)
    (held : scope.store.value? name = some value) : scope.value ('$' :: name) = pure value := by
  have trimmed : Text.trim ('$' :: name) = '$' :: name := (Text.referenceEnclosed identifier).trimmed
  have kind : Operand.ofTrimmed ('$' :: name) = .ok (.stored name) := Operand.ofTrimmedSigned (by decide) name
  rw [valueEq, Operand.ofToken, trimmed, kind]
  change Eval.ofExcept (scope.store.read name) = pure value
  rw [Store.readValue held]
  rfl

end Scope

namespace Statement

def assignmentLine (name : Text) (type : ValueType) (value : Text) : Text :=
  '$' :: (name ++ ' ' :: (type.name ++ '[' :: ("] = ".toList ++ inParens value)))

def openingLine (name lower upper : Text) : Text :=
  "@n $".toList ++ name ++ ' ' :: (inParens lower ++ ' ' :: inParens upper)

theorem assignmentLineRead {name value : Text} (identifier : Text.isIdentifier name = true)
    (enclosed : Token.Enclosed value) (type : ValueType) :
    parse (assignmentLine name type value) = .ok (.assign ⟨name, type, [], value⟩) := by
  have written : render (.assign ⟨name, type, [], value⟩) = assignmentLine name type value := by
    change '$' :: (name ++ ' ' :: (type.name ++ '[' :: ("] = ".toList ++ renderValue value))) = _
    rw [Token.renderParens enclosed.balanced]
    rfl
  have readable : (Statement.assign ⟨name, type, [], value⟩).Readable := ⟨identifier, by simp, .enclosed enclosed⟩
  rw [← written, renderRead readable]

theorem openingLineRead {name lower upper : Text} (identifier : Text.isIdentifier name = true)
    (low : Token.Enclosed lower) (high : Token.Enclosed upper) :
    parse (openingLine name lower upper) = .ok (.openLoop name lower upper) := by
  have written : render (.openLoop name lower upper) = openingLine name lower upper := by
    change "@n $".toList ++ name ++ ' ' :: (renderValue lower ++ ' ' :: renderValue upper) = _
    rw [Token.renderParens low.balanced, Token.renderParens high.balanced]
    rfl
  have readable : (Statement.openLoop name lower upper).Readable := ⟨identifier, .enclosed low, .enclosed high⟩
  rw [← written, renderRead readable]

end Statement

namespace Machine
variable {ω : Type} {machine : Machine ω} {name : Text}

def Mismatches (machine : Machine ω) : Prop := ∃ report, machine.step.1 = .error report ∧ report.fault.kind = .typeError

theorem mismatched {line : Text} {cause : Mismatch} {after : Machine ω} (running : machine.status = .running)
    (here : machine.line? machine.counter = some line)
    (ran : machine.execute line = (.error (.typeMismatch cause), after)) :
    machine.Mismatches ∧ machine.step.2.store = after.store := by
  rw [Mismatches, stepError running here ran]
  exact ⟨⟨_, rfl, rfl⟩, rfl⟩

theorem executeValue {text : Text} {value : Value} (identifier : Text.isIdentifier name = true)
    (enclosed : Token.Enclosed text) (type : ValueType) (read : machine.scope.value text = pure value) :
    machine.execute (Statement.assignmentLine name type text) =
      ((machine.store.assign name type [] value).1,
        { machine with store := (machine.store.assign name type [] value).2 }) := by
  have parsed := Statement.assignmentLineRead identifier enclosed type
  have given : machine.evaluate (machine.scope.value text) = (.ok value, machine) := by rw [read]; rfl
  simp only [execute, parsed, executeAssignment, given]

section Assigning
variable {type : ValueType} {text : Text} (running : machine.status = .running)
  (identifier : Text.isIdentifier name = true) (enclosed : Token.Enclosed text)
  (admits : machine.store.Admits name type)
  (here : machine.line? machine.counter = some (Statement.assignmentLine name type text))
include running identifier enclosed here

theorem assigningRefused {cause : Mismatch} (read : machine.scope.value text = .fail (.typeMismatch cause)) :
    machine.Mismatches ∧ machine.step.2.store = machine.store := by
  have parsed := Statement.assignmentLineRead identifier enclosed type
  have ran : machine.execute (Statement.assignmentLine name type text) = (.error (.typeMismatch cause), machine) := by
    simp only [execute, parsed, executeAssignment, read]
    rfl
  exact mismatched running here ran

include admits

theorem assigningStores {value stored : Value} (read : machine.scope.value text = pure value)
    (fits : value.coerce type = some stored) :
    ∃ after : Machine ω, machine.step = (.ok after.advance.status, after.advance) ∧
      after = { machine with
        store := machine.store.put name { machine.store.cell name type with data := some stored } } := by
  refine ⟨_, stepOk running here ?_, rfl⟩
  rw [executeValue identifier enclosed type read, Store.assignFits admits fits]

theorem assigningMisfits {value : Value} (read : machine.scope.value text = pure value)
    (misfit : value.coerce type = none) :
    machine.Mismatches ∧ machine.step.2.store = machine.store.put name (machine.store.cell name type) := by
  obtain ⟨cause, refused⟩ := Store.assignMisfit admits misfit
  have ran := executeValue identifier enclosed type read
  rw [refused] at ran
  exact mismatched running here ran

end Assigning

section Opening
variable {lower upper : Text} {low high : Int} (running : machine.status = .running)
  (identifier : Text.isIdentifier name = true) (first : Numeral.Spells lower low) (second : Numeral.Spells upper high)
  (here : machine.line? machine.counter = some (Statement.openingLine name lower upper))
include running identifier first second here

theorem openingFits (admits : machine.store.Admits name .integer) (lowFits : Numeral.Fits low)
    (highFits : Numeral.Fits high) :
    machine.step.1 = .ok machine.step.2.status ∧ ∃ one other : Int64, one.toInt = low ∧ other.toInt = high ∧
      ∃ cell, machine.step.2.store.get? name = some cell ∧ cell.data = some (.int one) ∧
        cell.loop = some ⟨other, Int64.ofNat (machine.counter + 1)⟩ := by
  have parsed := Statement.openingLineRead identifier first.enclosed second.enclosed
  obtain ⟨one, lowWord, lowRead⟩ := machine.scope.boundFits first lowFits
  obtain ⟨other, highWord, highRead⟩ := machine.scope.boundFits second highFits
  have given : machine.evaluate (bounds machine.scope lower upper) = (.ok (one, other), machine) := by
    rw [bounds, lowRead, highRead]
    rfl
  have opened := Store.openFits admits one other (machine.counter + 1)
  have ran : (machine.execute (Statement.openingLine name lower upper)) = (.ok (), { machine with
      store := machine.store.put name ({ (machine.store.cell name .integer).addFlags [Variable.loopFlag] with
        data := some (.int one) }.withLoop ⟨other, Int64.ofNat (machine.counter + 1)⟩) }) := by
    simp only [execute, parsed, executeOpen, given, opened]
  rw [stepOk running here ran]
  exact ⟨rfl, one, other, lowWord, highWord, _, (Store.getPut _ _ _ _).trans (if_pos rfl), rfl,
    Variable.withLoopLoop _ _⟩

theorem openingMismatches (large : ¬(Numeral.Fits low ∧ Numeral.Fits high)) :
    machine.Mismatches ∧ machine.step.2.store = machine.store := by
  have parsed := Statement.openingLineRead identifier first.enclosed second.enclosed
  have failed : ∃ cause,
      machine.evaluate (bounds machine.scope lower upper) = (.error (.typeMismatch cause), machine) := by
    by_cases lowFits : Numeral.Fits low
    · obtain ⟨word, _, lowRead⟩ := machine.scope.boundFits first lowFits
      obtain ⟨cause, refused⟩ := machine.scope.boundRefused second fun highFits => large ⟨lowFits, highFits⟩
      exact ⟨cause, by rw [bounds, lowRead, refused]; rfl⟩
    · obtain ⟨cause, refused⟩ := machine.scope.boundRefused first lowFits
      exact ⟨cause, by rw [bounds, refused]; rfl⟩
  obtain ⟨cause, given⟩ := failed
  have ran : machine.execute (Statement.openingLine name lower upper) = (.error (.typeMismatch cause), machine) := by
    simp only [execute, parsed, executeOpen, given]
  exact mismatched running here ran

end Opening

theorem textReturns (running : machine.status = .running) (identifier : Text.isIdentifier name = true)
    (admits : machine.store.Admits name .integer) {source middle : Text} {word : Int64}
    (given : Text.isIdentifier source = true) (through : Text.isIdentifier middle = true) (apart : middle ≠ name)
    (strings : machine.store.Admits middle .string) (held : machine.store.value? source = some (.int word))
    (here : machine.line? machine.counter = some (Statement.assignmentLine middle .string ('$' :: source)))
    (there : machine.line? (machine.counter + 1) = some (Statement.assignmentLine name .integer ('$' :: middle))) :
    machine.step.1 = .ok .running ∧ machine.step.2.step.1 = .ok machine.step.2.step.2.status ∧
      machine.step.2.step.2.store.value? name = some (.int word) := by
  have read : machine.scope.value ('$' :: source) = pure (.int word) := machine.scope.valueReference given held
  obtain ⟨after, first, same⟩ :=
    assigningStores running through (Text.referenceEnclosed given) strings here read rfl
  have still : after.advance.status = .running := by
    subst same
    exact (if_neg (Nat.not_lt.mpr (insideLine there).2)).trans running
  have stored : after.advance.store.value? middle = some (.str (Numeral.writeInt64 word)) := by
    subst same
    exact Store.valuePut _
  -- The string went into another cell.
  have kept : after.advance.store.Admits name .integer := by
    subst same
    intro cell found
    exact admits cell (by rwa [advance, Store.getPut, if_neg apart] at found)
  have next : after.advance.line? after.advance.counter =
      some (Statement.assignmentLine name .integer ('$' :: middle)) := by
    subst same
    exact there
  have again : after.advance.scope.value ('$' :: middle) = pure (.str (Numeral.writeInt64 word)) :=
    after.advance.scope.valueReference through stored
  obtain ⟨last, second, rfl⟩ := assigningStores still identifier (Text.referenceEnclosed through) kept next again
    (Value.writtenCoerced word)
  rw [first, second]
  exact ⟨congrArg Except.ok still, rfl, Store.valuePut _⟩

theorem assigningSpelled (running : machine.status = .running) (identifier : Text.isIdentifier name = true)
    (admits : machine.store.Admits name .integer) {text : Text} {n : Int} (spells : Numeral.Spells text n)
    (here : machine.line? machine.counter = some (Statement.assignmentLine name .integer text)) :
    (Numeral.Fits n → machine.step.1 = .ok machine.step.2.status ∧
      ∃ word : Int64, word.toInt = n ∧ machine.step.2.store.value? name = some (.int word)) ∧
    (¬Numeral.Fits n → machine.Mismatches ∧ machine.step.2.store.value? name = machine.store.value? name) := by
  constructor
  case left =>
    intro fits
    obtain ⟨word, same, read⟩ := spells.readWord fits
    rcases machine.scope.valueSpelled spells with ⟨value, given, asked⟩ | ⟨nothing, _⟩
    · have stored : value.coerce .integer = some (.int word) := by rw [Value.coerce, asked, read]; rfl
      obtain ⟨after, stepped, rfl⟩ := assigningStores running identifier spells.enclosed admits here given stored
      rw [stepped]
      exact ⟨rfl, word, same, Store.valuePut _⟩
    · simp [read] at nothing
  case right =>
    intro large
    -- With a sign the cell refuses what is too large, when the name is taken already; without one there is no value.
    rcases machine.scope.valueSpelled spells with ⟨value, given, asked⟩ | ⟨_, cause, failed⟩
    · have misfit : value.coerce .integer = none := by rw [Value.coerce, asked, spells.readNothing large]; rfl
      obtain ⟨mismatches, store⟩ := assigningMisfits running identifier spells.enclosed admits here given misfit
      rw [store]
      exact ⟨mismatches, Store.valueTaken name .integer⟩
    · obtain ⟨mismatches, store⟩ := assigningRefused running identifier spells.enclosed here failed
      rw [store]
      exact ⟨mismatches, rfl⟩

theorem integersReturn {machine : Machine ω} {name : Text} (running : machine.status = .running)
    (identifier : Text.isIdentifier name = true) (admits : machine.store.Admits name .integer) :
    (∀ text n, Numeral.Spells text n →
      machine.line? machine.counter = some (Statement.assignmentLine name .integer text) →
      (Numeral.Fits n → machine.step.1 = .ok machine.step.2.status ∧
        ∃ word : Int64, word.toInt = n ∧ machine.step.2.store.value? name = some (.int word)) ∧
      (¬Numeral.Fits n → machine.Mismatches ∧ machine.step.2.store.value? name = machine.store.value? name)) ∧
    (∀ lower upper low high, Numeral.Spells lower low → Numeral.Spells upper high →
      machine.line? machine.counter = some (Statement.openingLine name lower upper) →
      (Numeral.Fits low ∧ Numeral.Fits high → machine.step.1 = .ok machine.step.2.status ∧
        ∃ one other : Int64, one.toInt = low ∧ other.toInt = high ∧
          ∃ cell, machine.step.2.store.get? name = some cell ∧ cell.data = some (.int one) ∧
            cell.loop = some ⟨other, Int64.ofNat (machine.counter + 1)⟩) ∧
      (¬(Numeral.Fits low ∧ Numeral.Fits high) → machine.Mismatches ∧ machine.step.2.store = machine.store)) ∧
    ∀ source middle, ∀ word : Int64, Text.isIdentifier source = true → Text.isIdentifier middle = true →
      middle ≠ name → machine.store.Admits middle .string → machine.store.value? source = some (.int word) →
      machine.line? machine.counter = some (Statement.assignmentLine middle .string ('$' :: source)) →
      machine.line? (machine.counter + 1) = some (Statement.assignmentLine name .integer ('$' :: middle)) →
      machine.step.1 = .ok .running ∧ machine.step.2.step.1 = .ok machine.step.2.step.2.status ∧
        machine.step.2.step.2.store.value? name = some (.int word) := by
  refine ⟨?_, ?_, ?_⟩
  · intro text n spells here
    exact assigningSpelled running identifier admits spells here
  · intro lower upper low high first second here
    exact ⟨fun fits => openingFits running identifier first second here admits fits.1 fits.2,
      openingMismatches running identifier first second here⟩
  · intro source middle word given through apart strings held here there
    exact textReturns running identifier admits given through apart strings held here there

def leastThrough : Machine Unit :=
  ofLines ["$x integer[] = (-9223372036854775808)".toList, "$s string[] = ($x)".toList, "$y integer[] = ($s)".toList]
    Registry.initial Settings.default ()

def tooGreat : Machine Unit := ofLines ["@n $i (0) (9223372036854775808)".toList] Registry.initial Settings.default ()

theorem integersReturnLeast :
    leastThrough.step.2.step.2.step.2.store.value? ['y'] = some (.int Int64.minValue) ∧ tooGreat.Mismatches := by
  have free (machine : Machine Unit) (name : Text) (type : ValueType) (absent : machine.store.get? name = none) :
      machine.store.Admits name type := by
    intro cell found
    simp [absent] at found
  have least : Numeral.Spells "-9223372036854775808".toList (-9223372036854775808) := .minus (by decide)
  obtain ⟨_, word, same, held⟩ := ((integersReturn (by rfl) (by decide +kernel)
    (free leastThrough ['x'] .integer (by rfl))).1 _ _ least (by rfl)).1 (by decide)
  have minimal : word = Int64.minValue := Int64.toInt_inj.mp (same.trans Int64.toInt_minValue.symm)
  subst minimal
  refine ⟨?_, ?_⟩
  · have returned := (integersReturn (by decide +kernel) (by decide +kernel)
      (free leastThrough.step.2 ['y'] .integer (by decide +kernel))).2.2 ['x'] ['s'] Int64.minValue (by decide +kernel)
      (by decide +kernel) (by decide) (free _ _ _ (by decide +kernel)) held (by decide +kernel) (by decide +kernel)
    exact returned.2.2
  · have zero : Numeral.Spells "0".toList 0 := .plain (by decide)
    have great : Numeral.Spells "9223372036854775808".toList 9223372036854775808 := .plain (by decide)
    have refused := (integersReturn (by rfl) (by decide +kernel) (free tooGreat ['i'] .integer (by rfl))).2.1 _ _ _ _
      zero great (by rfl)
    exact (refused.2 (by decide)).1

end Machine
end Sigil
