import Sigil.Proofs.Source
import Sigil.Statement.Printer

/-! Tokens as they are written and read. What a reader takes from a line it takes again from wherever it is
written: an identifier before anything that cannot go on with it, a word before a blank, balanced text between
parentheses. -/
namespace Sigil

namespace Text

def Trimmed (text : Text) : Prop := text.trim = text

theorem trimBlank {c : Char} (blank : isBlank c = true) (rest : Text) : trim (c :: rest) = trim rest := by
  simp [trim, trimStart, blank]

theorem trimEndLength (text : Text) : text.trimEnd.length ≤ text.length := by
  simpa [trimEnd] using (List.dropWhile_sublist isBlank (l := text.reverse)).length_le

theorem trimEndConcat (text : Text) (c : Char) :
    trimEnd (text ++ [c]) = if isBlank c = true then trimEnd text else text ++ [c] := by
  simp only [trimEnd, List.reverse_append, List.reverse_singleton, List.singleton_append, List.dropWhile_cons]
  split
  · rfl
  · simp

theorem endsVisible {text : Text} (filled : text ≠ []) (visible : ∀ front c, text = front ++ [c] → isBlank c = false) :
    text.trimEnd = text := by
  obtain ⟨front, c, rfl⟩ := List.eq_nil_or_concat text |>.resolve_left filled
  rw [List.concat_eq_append] at visible ⊢
  rw [trimEndConcat, visible front c rfl]
  rfl

theorem trimEndAppend (front : Text) {tail : Text} (filled : tail ≠ []) (ends : tail.trimEnd = tail) :
    (front ++ tail).trimEnd = front ++ tail := by
  obtain ⟨body, c, rfl⟩ := List.eq_nil_or_concat tail |>.resolve_left filled
  rw [List.concat_eq_append] at ends ⊢
  rw [← List.append_assoc, trimEndConcat]
  split
  · rename_i blank
    have longer := congrArg List.length ends
    have cut := trimEndLength body
    rw [trimEndConcat, if_pos blank, List.length_append, List.length_singleton] at longer
    omega
  · rfl

theorem Trimmed.start {text : Text} (trimmed : text.Trimmed) : text.trimStart = text := by
  have whole : text.trimStart.trimEnd = text := trimmed
  have back := trimEndLength text.trimStart
  rw [whole] at back
  exact (List.dropWhile_sublist isBlank).eq_of_length_le back

theorem Trimmed.ends {text : Text} (trimmed : text.Trimmed) : text.trimEnd = text := by
  have whole : text.trim = text := trimmed
  rwa [trim, trimmed.start] at whole

theorem trimTrimmed (text : Text) : text.trim.Trimmed := trimTrim text

theorem signTrimmed {c : Char} (visible : isBlank c = false) (front : Text) {tail : Text} (filled : tail ≠ [])
    (ends : tail.trimEnd = tail) : Trimmed (c :: (front ++ tail)) := by
  rw [Trimmed, trimVisible visible, trimEndAppend front filled ends]

theorem blankTextIff {text : Text} : text.isBlankText = true ↔ text.trim = [] := by
  induction text with
  | nil => simp [isBlankText, trim, trimStart, trimEnd]
  | cons c rest ih =>
    cases blank : isBlank c with
    | true => rw [trimBlank blank, ← ih]; simp [isBlankText, blank]
    | false => simp [trimVisible blank, isBlankText, blank]

theorem spacedSaid {text : Text} (filled : text.trim ≠ []) : isBlankText (' ' :: text) = false := by
  rw [← Bool.not_eq_true, blankTextIff, trimBlank (by decide)]
  exact filled

def blankCodes : List Nat :=
  [0x9, 0xA, 0xB, 0xC, 0xD, 0x20, 0x85, 0xA0, 0x1680, 0x2000, 0x2001, 0x2002, 0x2003, 0x2004, 0x2005, 0x2006, 0x2007,
    0x2008, 0x2009, 0x200A, 0x2028, 0x2029, 0x202F, 0x205F, 0x3000]

theorem wordCharVisible {c : Char} (word : isWordChar c = true) : isBlank c = false := by
  have others : ∀ code ∈ blankCodes, isWordChar (Char.ofNat code) = false := by decide +kernel
  cases blank : isBlank c with
  | false => rfl
  | true =>
    have listed : c.toNat ∈ blankCodes := by
      simp only [isBlank, withinRanges, blankRanges, Bool.and_eq_true, Bool.or_eq_true, decide_eq_true_eq,
        Bool.false_eq_true, or_false] at blank
      simp only [blankCodes, List.mem_cons, List.not_mem_nil, or_false]
      omega
    simpa [word] using others c.toNat listed

theorem identifierChars {name : Text} (identifier : isIdentifier name = true) :
    name ≠ [] ∧ ∀ c ∈ name, isWordChar c = true := by
  simpa [isIdentifier] using identifier

theorem identifierEnds {name : Text} (identifier : isIdentifier name = true) : name.trimEnd = name := by
  obtain ⟨filled, chars⟩ := identifierChars identifier
  refine endsVisible filled fun front c same => wordCharVisible (chars c ?_)
  simp [same]

theorem takenWhole {kind : Char → Bool} {text rest : Text} (all : ∀ c ∈ text, kind c = true)
    (stop : ∀ c, rest.head? = some c → kind c = false) :
    (text ++ rest).takeWhile kind = text ∧ (text ++ rest).dropWhile kind = rest := by
  rw [List.takeWhile_append_of_pos all, List.dropWhile_append_of_pos all]
  cases rest with
  | nil => simp
  | cons c tail => simp [stop c rfl]

theorem takeIdentifierAppend {name rest : Text} (identifier : isIdentifier name = true)
    (stop : ∀ c, rest.head? = some c → isWordChar c = false) : takeIdentifier (name ++ rest) = some (name, rest) := by
  obtain ⟨filled, chars⟩ := identifierChars identifier
  obtain ⟨taken, left⟩ := takenWhole chars stop
  unfold takeIdentifier
  split <;> rename_i found
  · exact absurd (taken.symm.trans found) filled
  · rw [left, taken]

end Text

namespace Token

theorem Balanced.tail {c : Char} {rest : Text} (balanced : Balanced (c :: rest)) (quote : c ≠ '"') (opens : c ≠ '(') :
    Balanced rest := by
  cases balanced with
  | plain free tail => exact tail
  | quoted string tail => exact absurd rfl quote
  | group inside tail => exact absurd rfl opens

theorem lastBehind {front rest text : Text} {c d : Char} (same : front ++ d :: rest = text ++ [c]) (other : c ≠ d) :
    ∃ inner, rest = inner ++ [c] ∧ text = front ++ d :: inner := by
  rcases List.eq_nil_or_concat rest with rfl | ⟨inner, e, rfl⟩
  · obtain ⟨_, ends⟩ := List.append_inj' same rfl
    exact absurd (List.singleton_inj.mp ends).symm other
  · rw [List.concat_eq_append] at same ⊢
    have split : (front ++ d :: inner) ++ [e] = text ++ [c] := by simpa using same
    obtain ⟨whole, ends⟩ := List.append_inj' split rfl
    exact ⟨inner, by rw [ends], whole.symm⟩

theorem Balanced.front {text whole : Text} {c : Char} (balanced : Balanced whole) (same : whole = text ++ [c])
    (quote : c ≠ '"') (closes : c ≠ ')') : Balanced text := by
  induction balanced generalizing text with
  | nil => simp at same
  | plain free tail ih =>
    cases text with
    | nil => exact .nil
    | cons d text =>
      obtain ⟨rfl, shorter⟩ := List.cons_eq_cons.mp same
      exact .plain free (ih shorter)
  | @quoted body rest string tail ih =>
    have split : ('"' :: body) ++ '"' :: rest = text ++ [c] := same
    obtain ⟨inner, behind, rfl⟩ := lastBehind split quote
    exact .quoted string (ih behind)
  | @group inside rest within tail _ ih =>
    have split : ('(' :: inside) ++ ')' :: rest = text ++ [c] := same
    obtain ⟨inner, behind, rfl⟩ := lastBehind split closes
    exact .group within (ih behind)

theorem blankPlain {c : Char} (blank : Text.isBlank c = true) : c ≠ '"' ∧ c ≠ '(' ∧ c ≠ ')' := by
  refine ⟨?_, ?_, ?_⟩ <;> rintro rfl <;> revert blank <;> decide

theorem balancedTrim {text : Text} (balanced : Balanced text) : Balanced text.trim := by
  have start : Balanced text.trimStart := by
    induction text with
    | nil => exact .nil
    | cons c rest ih =>
      rw [Text.trimStart, List.dropWhile_cons]
      split
      · rename_i blank
        exact ih (balanced.tail (blankPlain blank).1 (blankPlain blank).2.1)
      · exact balanced
  rw [Text.trim]
  generalize text.trimStart = text at start
  induction text using List.reverseRecOn with
  | nil => exact .nil
  | append_singleton body c ih =>
    rw [Text.trimEndConcat]
    split
    · rename_i blank
      exact ih (start.front rfl (blankPlain blank).1 (blankPlain blank).2.2)
    · exact start

/- Text that can stand between parentheses and comes back from there as it is. -/
structure Enclosed (text : Text) : Prop where
  trimmed : text.Trimmed
  balanced : Balanced text

theorem enclosedTrim {text : Text} (balanced : Balanced text) : Enclosed text.trim :=
  ⟨Text.trimTrimmed text, balancedTrim balanced⟩

theorem closeEnclosed {text : Text} (enclosed : Enclosed text) (rest : Text) :
    closeGroup (.outside 1) (text ++ ')' :: rest) = some (text, rest) :=
  closeGroupIff.mpr ⟨enclosed.balanced, rfl⟩

theorem parensTrimmed (text : Text) : (Statement.inParens text).Trimmed := by
  rw [Text.Trimmed, Statement.inParens, Text.trimVisible (by decide)]
  congr 1
  rw [Text.trimEndConcat]
  rfl

theorem unwrapParens {text : Text} (enclosed : Enclosed text) : unwrapGroup (Statement.inParens text) = text := by
  have whole : (Statement.inParens text).trim = '(' :: (text ++ [')']) := parensTrimmed text
  simp only [unwrapGroup, whole, closeEnclosed enclosed []]
  exact enclosed.trimmed

def Nesting.depth : Nesting → Nat
  | .outside depth | .quoted depth | .escaped depth => depth

theorem Nesting.nextDepth {here : Nesting} {c : Char} (deep : 0 < here.depth)
    (within : ¬(here = .outside 1 ∧ c = ')')) :
    0 < (here.next c).depth := by
  cases here with
  | outside depth =>
    simp only [Nesting.next]
    split
    · exact deep
    · split
      · exact Nat.succ_pos depth
      · split
        · rename_i closes
          have deeper : depth ≠ 1 := fun one => within ⟨by rw [one], closes⟩
          simp only [Nesting.depth] at deep ⊢
          omega
        · exact deep
  | quoted depth =>
    simp only [Nesting.next]
    split
    · exact deep
    · split <;> exact deep
  | escaped depth => exact deep

theorem wordStep {here : Nesting} {c : Char} (rest : Text) (goes : ¬(here = .outside 0 ∧ Text.isBlank c = true)) :
    word here (c :: rest) = ahead [c] (word (here.next c) rest) := by
  simp [word, goes, ahead]

theorem wordGroup {here : Nesting} {text inner rest : Text} (deep : 0 < here.depth)
    (h : closeGroup here text = some (inner, rest)) :
    word here text = ahead (inner ++ [')']) (word (.outside 0) rest) := by
  induction text generalizing here inner with
  | nil => simp [closeGroup] at h
  | cons c tail ih =>
    have goes : ¬(here = .outside 0 ∧ Text.isBlank c = true) := by
      rintro ⟨rfl, _⟩
      exact absurd deep (Nat.lt_irrefl 0)
    by_cases closes : here = .outside 1 ∧ c = ')'
    · obtain ⟨rfl, rfl⟩ := closes
      simp only [closeGroup, and_self, if_true, Option.some.injEq, Prod.mk.injEq] at h
      obtain ⟨rfl, rfl⟩ := h
      exact wordStep tail goes
    · rw [closeGroupStep tail closes] at h
      obtain ⟨more, rfl, step⟩ := aheadSome h
      rw [wordStep tail goes, ih (Nesting.nextDepth deep closes) step, ← aheadAppend]
      rfl

def Stops (rest : Text) : Prop := ∀ c, rest.head? = some c → Text.isBlank c = true

theorem stopsNil : Stops [] := fun _ found => nomatch found

theorem wordStops {rest : Text} (stops : Stops rest) : word (.outside 0) rest = some ([], rest) := by
  cases rest with
  | nil => rfl
  | cons c tail => simp [word, stops c rfl]

theorem wordAgain {here : Nesting} {text taken rest more : Text} (h : word here text = some (taken, rest))
    (stops : Stops more) : word here (taken ++ more) = some (taken, more) := by
  induction text generalizing here taken with
  | nil =>
    simp only [word] at h
    split at h <;> cases h
    rename_i outside
    rw [outside]
    exact wordStops stops
  | cons c tail ih =>
    by_cases blank : here = .outside 0 ∧ Text.isBlank c = true
    · simp only [word, blank, and_self, if_true, Option.some.injEq, Prod.mk.injEq] at h
      rw [blank.1, ← h.1]
      exact wordStops stops
    · rw [wordStep tail blank] at h
      obtain ⟨later, rfl, step⟩ := aheadSome h
      rw [List.append_assoc, List.singleton_append, wordStep _ blank, ih step]
      rfl

theorem Nesting.leaves {here : Nesting} {c : Char} (h : here.next c = .outside 0) :
    here = .outside 0 ∨ c = ')' ∨ c = '"' := by
  cases here with
  | outside depth =>
    simp only [Nesting.next] at h
    split at h
    · simp at h
    · split at h
      · simp at h
      · split at h
        · rename_i closes
          exact .inr (.inl closes)
        · exact .inl h
  | quoted depth =>
    simp only [Nesting.next] at h
    split at h
    · simp at h
    · split at h
      · rename_i quote
        exact .inr (.inr quote)
      · simp at h
  | escaped depth => simp [Nesting.next] at h

theorem wordLast {here : Nesting} {text front rest : Text} {c : Char}
    (h : word here text = some (front ++ [c], rest)) : Text.isBlank c = false := by
  induction text generalizing here front with
  | nil =>
    simp only [word] at h
    split at h <;> simp at h
  | cons d tail ih =>
    by_cases blank : here = .outside 0 ∧ Text.isBlank d = true
    · simp [word, blank] at h
    · rw [wordStep tail blank] at h
      obtain ⟨later, same, step⟩ := aheadSome h
      cases front with
      | cons e front =>
        obtain ⟨rfl, rfl⟩ := List.cons_eq_cons.mp same
        exact ih step
      | nil =>
        obtain ⟨rfl, rfl⟩ := List.cons_eq_cons.mp same
        have outside : here.next c = .outside 0 := by
          cases tail with
          | nil =>
            simp only [word] at step
            split at step
            · assumption
            · simp at step
          | cons e tail =>
            by_cases stop : here.next c = .outside 0 ∧ Text.isBlank e = true
            · exact stop.1
            · rw [wordStep tail stop] at step
              obtain ⟨_, impossible, _⟩ := aheadSome step
              simp at impossible
        rcases Nesting.leaves outside with top | rfl | rfl
        · simpa using fun visible => blank ⟨top, visible⟩
        · decide
        · decide

structure Single (text : Text) : Prop where
  filled : text ≠ []
  whole : word (.outside 0) text = some (text, [])

namespace Single

theorem starts {text : Text} (single : Single text) : ∃ c rest, text = c :: rest ∧ Text.isBlank c = false := by
  obtain ⟨filled, whole⟩ := single
  cases text with
  | nil => contradiction
  | cons c rest =>
    refine ⟨c, rest, rfl, ?_⟩
    cases blank : Text.isBlank c with
    | false => rfl
    | true => simp [word, blank] at whole

theorem ends {text : Text} (single : Single text) : text.trimEnd = text := by
  refine Text.endsVisible single.filled fun front c same => ?_
  have whole := single.whole
  rw [same] at whole
  exact wordLast whole

theorem trimmed {text : Text} (single : Single text) : text.Trimmed := by
  have behind := single.ends
  obtain ⟨c, rest, rfl, visible⟩ := single.starts
  rw [Text.Trimmed, Text.trimVisible visible, ← Text.trimEndCons visible, behind]

end Single

theorem parensSingle {text : Text} (balanced : Balanced text) : Single (Statement.inParens text) := by
  refine ⟨List.cons_ne_nil _ _, ?_⟩
  have inside : word (.outside 1) (text ++ [')']) = some (text ++ [')'], []) := by
    rw [wordGroup (by decide) (closeGroupIff.mpr ⟨balanced, rfl⟩)]
    simp [word, ahead]
  have opened : (Nesting.outside 0).next '(' = .outside 1 := rfl
  rw [Statement.inParens, wordStep _ (by decide), opened, inside]
  rfl

theorem wordSingle {text taken rest : Text} (filled : taken ≠ []) (h : word (.outside 0) text = some (taken, rest)) :
    Single taken := by
  have alone := wordAgain h stopsNil
  rw [List.append_nil] at alone
  exact ⟨filled, alone⟩

theorem operandsBlank (whole : Text) {gap : Text} (blank : ∀ c ∈ gap, Text.isBlank c = true) :
    operandsOf whole gap = .ok [] := by
  have nothing : gap.trimStart = [] := List.dropWhile_eq_nil_iff.mpr blank
  rw [operandsOf]
  split
  · rfl
  · rename_i start
    simp [nothing] at start

theorem operandsStep (whole : Text) {gap first more : Text} (blank : ∀ c ∈ gap, Text.isBlank c = true)
    (single : Single first) (stops : Stops more) :
    operandsOf whole (gap ++ (first ++ more)) = (operandsOf whole more).map (first :: ·) := by
  have taken := wordAgain single.whole stops
  obtain ⟨c, rest, rfl, visible⟩ := single.starts
  have behind : Text.trimStart (gap ++ (c :: rest ++ more)) = c :: (rest ++ more) := by
    rw [Text.trimStart, List.dropWhile_append_of_pos blank]
    simp [visible]
  rw [operandsOf]
  split
  · simp_all
  · rename_i d tail start
    obtain ⟨rfl, rfl⟩ := List.cons_eq_cons.mp (behind.symm.trans start)
    split <;> rename_i found
    · simp_all
    · rw [← List.cons_append, taken] at found
      cases found
      rfl

theorem operandsPair {first second : Text} (single : Single first) (other : Single second) :
    operands (' ' :: (first ++ ' ' :: second)) = .ok [first, second] := by
  have space : ∀ c ∈ [' '], Text.isBlank c = true := List.forall_mem_singleton.mpr (by decide)
  have stops : Stops (' ' :: second) := fun c found => space c (by simpa using found.symm)
  have last (whole : Text) : operandsOf whole (' ' :: second) = .ok [second] := by
    have step := operandsStep whole space other stopsNil
    rw [List.append_nil] at step
    exact step.trans (congrArg _ (operandsBlank whole (by simp)))
  exact (operandsStep _ space single stops).trans (congrArg _ (last _))

theorem operandsSingle {whole text : Text} {words : List Text} (h : operandsOf whole text = .ok words) :
    ∀ found ∈ words, Single found := by
  fun_induction operandsOf whole text generalizing words with
  | case1 => cases h; simp
  | case2 => simp at h
  | case3 text c tail start first rest taken smaller ih =>
    obtain ⟨others, later, same⟩ := mapOk h
    cases same
    have filled := wordNonempty (Text.trimStartBlankFree start) taken
    intro found member
    rcases List.mem_cons.mp member with rfl | behind
    · exact wordSingle filled taken
    · exact ih later found behind

end Token
end Sigil
