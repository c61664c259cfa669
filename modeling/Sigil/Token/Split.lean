import Sigil.SyntaxFault
import Sigil.Token.Nesting

/-!
Cutting a text into the tokens of a statement: the arguments of a call, the operands of a
condition or of a loop head, and the value of an assignment. Each round takes at least one
character, so the text that is left grows shorter.
-/
namespace Sigil.Token

theorem argumentRestShorter {text tail inner rest more : Text} {c d : Char}
    (start : text.trimStart = c :: tail) (close : closeGroup (.outside 1) tail = some (inner, rest))
    (after : rest.trimStart = d :: more) : more.length < text.length := by
  have whole := Text.trimStartLength text
  have left := Text.trimStartLength rest
  have split := congrArg List.length (closeGroupSplit close)
  simp only [start, after, List.length_cons, List.length_append] at whole left split
  omega

theorem operandRestShorter {text tail first rest : Text} {c : Char}
    (start : text.trimStart = c :: tail) (taken : word (.outside 0) (c :: tail) = some (first, rest)) :
    rest.length < text.length := by
  have whole := Text.trimStartLength text
  have split := congrArg List.length (wordSplit taken)
  have filled := List.length_pos_iff.mpr (wordNonempty (Text.trimStartBlankFree start) taken)
  simp only [start, List.length_cons, List.length_append] at whole split
  omega

def arguments (text : Text) : Except SyntaxFault (List Text) :=
  match start : text.trimStart with
  | [] => .ok []
  | c :: tail =>
    if c = '(' then
      match close : closeGroup (.outside 1) tail with
      | none => .error .argumentNotClosed
      | some (inner, rest) =>
        match after : rest.trimStart with
        | [] => .ok [inner.trim]
        | d :: more =>
          if d = ',' then
            have : more.length < text.length := argumentRestShorter start close after
            (arguments more).map (inner.trim :: ·)
          else .error (.argumentNotSeparated d)
    else .error (.argumentNotOpened c)
termination_by text.length

theorem argumentsShorter {text arg : Text} {args : List Text}
    (h : arguments text = .ok args) (member : arg ∈ args) : arg.length ≤ text.length := by
  fun_induction arguments text generalizing args with
  | case1 => cases h; simp at member
  | case2 => simp at h
  | case3 text tail inner rest close after start =>
    cases h
    have whole := Text.trimStartLength text
    have left := congrArg List.length (closeGroupSplit close)
    have trimmed := Text.trimLength inner
    cases List.mem_singleton.mp member
    simp only [start, List.length_cons, List.length_append] at whole left
    omega
  | case4 text tail inner rest close more start after smaller ih =>
    obtain ⟨others, found, same⟩ := mapOk h
    cases same
    have whole := Text.trimStartLength text
    have left := congrArg List.length (closeGroupSplit close)
    have trimmed := Text.trimLength inner
    simp only [start, List.length_cons, List.length_append] at whole left
    rcases List.mem_cons.mp member with rfl | later
    · omega
    · have rest := ih found later
      omega
  | case5 => simp at h
  | case6 => simp at h

def operandsOf (whole text : Text) : Except SyntaxFault (List Text) :=
  match start : text.trimStart with
  | [] => .ok []
  | c :: tail =>
    match taken : word (.outside 0) (c :: tail) with
    | none => .error (.unbalanced whole.trim)
    | some (first, rest) =>
      have : rest.length < text.length := operandRestShorter start taken
      (operandsOf whole rest).map (first :: ·)
termination_by text.length

def operands (text : Text) : Except SyntaxFault (List Text) := operandsOf text text

def assignmentValue (text : Text) : Except SyntaxFault Text :=
  match text.trim with
  | '(' :: tail =>
    match closeGroup (.outside 1) tail with
    | none => .error .valueNotClosed
    | some (inner, rest) =>
      match rest.trimStart with
      | [] => .ok inner.trim
      | more => .error (.valueFollowed more)
  | bare => (operands bare).map fun _ => bare

def unwrapGroup (text : Text) : Text :=
  match text.trim with
  | '(' :: tail =>
    match closeGroup (.outside 1) tail with
    | some (inner, []) => inner.trim
    | _ => '(' :: tail
  | bare => bare

end Sigil.Token
