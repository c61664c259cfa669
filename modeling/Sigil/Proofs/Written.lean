import Sigil.Proofs.Token
import Sigil.Statement.Parser

/-! The parts of a statement as they are written. What the reader makes of a bound, a value, an argument or a
flag is of a certain form, and of that form it comes back from its written form as it is. -/
namespace Sigil

namespace Text

theorem fieldsAppend {separator : Char} {piece : Text} (free : separator ∉ piece) (rest : Text) :
    fields separator (piece ++ separator :: rest) = piece :: fields separator rest := by
  induction piece with
  | nil => simp [fields]
  | cons c piece ih =>
    obtain ⟨other, later⟩ := not_or.mp (mt List.mem_cons.mpr free)
    rw [List.cons_append, fields, if_neg (Ne.symm other), ih later]

theorem fieldsAlone {separator : Char} {piece : Text} (free : separator ∉ piece) :
    fields separator piece = [piece] := by
  induction piece with
  | nil => rfl
  | cons c piece ih =>
    obtain ⟨other, later⟩ := not_or.mp (mt List.mem_cons.mpr free)
    rw [fields, if_neg (Ne.symm other), ih later]

theorem fieldsInside {separator : Char} {text : Text} :
    ∀ piece ∈ fields separator text, ∀ c ∈ piece, c ≠ separator ∧ c ∈ text := by
  induction text with
  | nil => simp [fields]
  | cons d rest ih =>
    have later : ∀ piece ∈ fields separator rest, ∀ c ∈ piece, c ≠ separator ∧ c ∈ d :: rest :=
      fun piece member c inside => ⟨(ih piece member c inside).1, List.mem_cons_of_mem d (ih piece member c inside).2⟩
    rw [fields]
    split
    · simpa using later
    · rename_i other
      cases cut : fields separator rest with
      | nil => exact absurd cut (fieldsNonempty separator rest)
      | cons first more =>
        rw [cut] at later
        intro piece member c inside
        rcases List.mem_cons.mp member with rfl | behind
        · rcases List.mem_cons.mp inside with rfl | within
          · exact ⟨other, List.mem_cons_self⟩
          · exact later first List.mem_cons_self c within
        · exact later piece (List.mem_cons_of_mem first behind) c inside

end Text

namespace Token

theorem renderParens {text : Text} (balanced : Balanced text) :
    Statement.renderValue text = Statement.inParens text := by
  rw [Statement.renderValue, isBalancedIff.mpr balanced, if_pos rfl]

theorem renderBare {text : Text} (unbalanced : ¬Balanced text) : Statement.renderValue text = text := by
  rw [Statement.renderValue, if_neg (mt isBalancedIff.mp unbalanced)]

/- What a loop head can have for a bound: balanced text, or a word that no pair of parentheses encloses. -/
inductive Bound (text : Text) : Prop where
  | enclosed (enclosed : Enclosed text)
  | bare (single : Single text) (bare : unwrapGroup text = text)

theorem unwrapCases (text : Text) : Enclosed (unwrapGroup text) ∨ unwrapGroup text = text.trim := by
  unfold unwrapGroup
  split
  · rename_i tail start
    split
    · rename_i inner close
      exact .inl (enclosedTrim (closeGroupIff.mp close).1)
    · exact .inr start.symm
  · exact .inr rfl

theorem unwrapBound {found : Text} (single : Single found) : Bound (unwrapGroup found) := by
  rcases unwrapCases found with enclosed | same
  · exact .enclosed enclosed
  · have bare : unwrapGroup found = found := same.trans single.trimmed
    rw [bare]
    exact .bare single bare

theorem renderBound {text : Text} (bound : Bound text) :
    Single (Statement.renderValue text) ∧ unwrapGroup (Statement.renderValue text) = text := by
  by_cases balanced : Balanced text
  · have enclosed : Enclosed text := by
      cases bound with
      | enclosed enclosed => exact enclosed
      | bare single bare => exact ⟨single.trimmed, balanced⟩
    rw [renderParens balanced]
    exact ⟨parensSingle enclosed.balanced, unwrapParens enclosed⟩
  · rw [renderBare balanced]
    cases bound with
    | enclosed enclosed => exact absurd enclosed.balanced balanced
    | bare single bare => exact ⟨single, bare⟩

/- What an assignment can have for a value: balanced text, or words of which the first opens no group. -/
inductive Assigned (text : Text) : Prop where
  | enclosed (enclosed : Enclosed text)
  | bare {words : List Text} (trimmed : text.Trimmed) (filled : text ≠ []) (opens : text.head? ≠ some '(')
      (reads : operands text = .ok words)

theorem assignmentCases {raw value : Text} (filled : raw.trim ≠ []) (h : assignmentValue raw = .ok value) :
    Assigned value := by
  unfold assignmentValue at h
  split at h
  · split at h
    · simp at h
    · rename_i inner rest close
      split at h
      · cases h
        exact .enclosed (enclosedTrim (closeGroupIff.mp close).1)
      · simp at h
  · rename_i opens
    obtain ⟨words, reads, same⟩ := mapOk h
    cases same
    refine .bare (Text.trimTrimmed raw) filled (fun start => ?_) reads
    obtain ⟨tail, whole⟩ := List.head?_eq_some_iff.mp start
    exact opens tail whole

theorem Assigned.trimmed {text : Text} (assigned : Assigned text) : text.Trimmed := by
  cases assigned with
  | enclosed enclosed => exact enclosed.trimmed
  | bare trimmed filled opens reads => exact trimmed

theorem assignmentParens {text : Text} (enclosed : Enclosed text) :
    assignmentValue (' ' :: Statement.inParens text) = .ok text := by
  have whole : Text.trim (' ' :: Statement.inParens text) = '(' :: (text ++ [')']) := by
    rw [Text.trimBlank (by decide)]
    exact parensTrimmed text
  simp only [assignmentValue, whole, closeEnclosed enclosed []]
  exact congrArg Except.ok enclosed.trimmed

theorem assignmentBare {text : Text} {words : List Text} (trimmed : text.Trimmed) (opens : text.head? ≠ some '(')
    (reads : operands text = .ok words) : assignmentValue (' ' :: text) = .ok text := by
  have whole : Text.trim (' ' :: text) = text := (Text.trimBlank (by decide) text).trans trimmed
  unfold assignmentValue
  rw [whole]
  split
  · simp at opens
  · rw [reads]
    rfl

theorem renderAssigned {text : Text} (assigned : Assigned text) :
    assignmentValue (' ' :: Statement.renderValue text) = .ok text ∧
      Statement.renderValue text ≠ [] ∧ (Statement.renderValue text).Trimmed := by
  by_cases balanced : Balanced text
  · rw [renderParens balanced]
    exact ⟨assignmentParens ⟨assigned.trimmed, balanced⟩, List.cons_ne_nil _ _, parensTrimmed text⟩
  · rw [renderBare balanced]
    cases assigned with
    | enclosed enclosed => exact absurd enclosed.balanced balanced
    | bare trimmed filled opens reads => exact ⟨assignmentBare trimmed opens reads, filled, trimmed⟩

theorem argumentsGroup {gap inner : Text} (blank : ∀ c ∈ gap, Text.isBlank c = true) (balanced : Balanced inner)
    (rest : Text) : arguments (gap ++ (Statement.inParens inner ++ rest)) =
      match rest.trimStart with
      | [] => .ok [inner.trim]
      | d :: more => if d = ',' then (arguments more).map (inner.trim :: ·) else .error (.argumentNotSeparated d) := by
  have opens : Text.isBlank '(' = false := by decide
  have whole : Text.trimStart (gap ++ (Statement.inParens inner ++ rest)) = '(' :: (inner ++ ')' :: rest) := by
    rw [Text.trimStart, List.dropWhile_append_of_pos blank]
    simp [Statement.inParens, opens]
  have closes : closeGroup (.outside 1) (inner ++ ')' :: rest) = some (inner, rest) := closeGroupIff.mpr ⟨balanced, rfl⟩
  rw [arguments]
  split
  · simp_all
  · rename_i c tail start
    obtain ⟨rfl, rfl⟩ := List.cons_eq_cons.mp (whole.symm.trans start)
    rw [if_pos rfl]
    split <;> rename_i found
    · simp [closes] at found
    · rw [closes] at found
      cases found
      split <;> rename_i behind <;> simp only [behind]

theorem argumentsStep {gap arg : Text} (blank : ∀ c ∈ gap, Text.isBlank c = true) (enclosed : Enclosed arg)
    (more : Text) : arguments (gap ++ (Statement.inParens arg ++ ',' :: more)) = (arguments more).map (arg :: ·) := by
  have comma : Text.trimStart (',' :: more) = ',' :: more := rfl
  have trimmed : arg.trim = arg := enclosed.trimmed
  rw [argumentsGroup blank enclosed.balanced, comma, trimmed]
  exact if_pos rfl

theorem renderArguments {gap : Text} (blank : ∀ c ∈ gap, Text.isBlank c = true) {args : List Text}
    (enclosed : ∀ arg ∈ args, Enclosed arg) :
    arguments (args.flatMap fun arg => gap ++ (Statement.inParens arg ++ [','])) = .ok args := by
  induction args with
  | nil =>
    rw [arguments]
    rfl
  | cons arg more ih =>
    have others := ih fun other member => enclosed other (List.mem_cons_of_mem arg member)
    have first := argumentsStep blank (enclosed arg List.mem_cons_self)
      (more.flatMap fun arg => gap ++ (Statement.inParens arg ++ [',']))
    rw [others, Except.map] at first
    simpa using first

theorem argumentsEnclosed {text : Text} {args : List Text} (h : arguments text = .ok args) :
    ∀ arg ∈ args, Enclosed arg := by
  fun_induction arguments text generalizing args with
  | case1 => cases h; simp
  | case2 => simp at h
  | case3 text tail inner rest close after start =>
    cases h
    simpa using enclosedTrim (closeGroupIff.mp close).1
  | case4 text tail inner rest close more start after smaller ih =>
    obtain ⟨others, found, same⟩ := mapOk h
    cases same
    intro arg member
    rcases List.mem_cons.mp member with rfl | later
    · exact enclosedTrim (closeGroupIff.mp close).1
    · exact ih found arg later
  | case5 => simp at h
  | case6 => simp at h

end Token

namespace Statement

structure Flag (flag : Text) : Prop where
  trimmed : flag.Trimmed
  filled : flag ≠ []
  unseparated : '/' ∉ flag
  unclosed : ']' ∉ flag

theorem flagListFlags {raw : Text} (unclosed : ']' ∉ raw) : ∀ flag ∈ flagList raw, Flag flag := by
  intro flag member
  obtain ⟨listed, filled⟩ := List.mem_filter.mp member
  obtain ⟨piece, there, rfl⟩ := List.mem_map.mp listed
  have inside : ∀ c ∈ piece.trim, c ≠ '/' ∧ c ∈ raw :=
    fun c within => Text.fieldsInside piece there c ((Text.trimSublist piece).subset within)
  exact ⟨Text.trimTrimmed piece, by simpa using filled, fun slash => (inside _ slash).1 rfl,
    fun bracket => unclosed (inside _ bracket).2⟩

theorem renderFlagsFields {flags : List Text} (formed : ∀ flag ∈ flags, Flag flag) (filled : flags ≠ []) :
    Text.fields '/' (renderFlags flags) = flags := by
  induction flags with
  | nil => contradiction
  | cons flag more ih =>
    have own := formed flag List.mem_cons_self
    cases more with
    | nil => exact Text.fieldsAlone own.unseparated
    | cons next rest =>
      have others := ih (fun other member => formed other (List.mem_cons_of_mem flag member)) (List.cons_ne_nil _ _)
      rw [renderFlags, Text.fieldsAppend own.unseparated, others]
      simp

theorem flagListRender {flags : List Text} (formed : ∀ flag ∈ flags, Flag flag) :
    flagList (renderFlags flags) = flags := by
  by_cases empty : flags = []
  · subst empty
    rfl
  · have kept : flags.map Text.trim = flags :=
      (List.map_congr_left fun flag member => (formed flag member).trimmed).trans (List.map_id flags)
    rw [flagList, renderFlagsFields formed empty, kept, List.filter_eq_self]
    intro flag member
    simpa using (formed flag member).filled

theorem renderFlagsUnclosed {flags : List Text} (formed : ∀ flag ∈ flags, Flag flag) : ']' ∉ renderFlags flags := by
  induction flags with
  | nil => simp [renderFlags]
  | cons flag more ih =>
    have own := formed flag List.mem_cons_self
    cases more with
    | nil => exact own.unclosed
    | cons next rest =>
      have others := ih fun other member => formed other (List.mem_cons_of_mem flag member)
      simp [renderFlags, own.unclosed, others]

end Statement
end Sigil
