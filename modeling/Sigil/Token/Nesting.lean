import Sigil.Text.Basic

/-!
Where a left-to-right scan of a text stands: outside quotes at some depth of open parentheses,
inside a quoted string, or inside one right after a backslash.
A parenthesis inside quotes does not count, and one that closes nothing leaves the depth at zero.
-/
namespace Sigil.Token

inductive Nesting where
  | outside (depth : Nat)
  | quoted (depth : Nat)
  | escaped (depth : Nat)
  deriving DecidableEq, Repr

namespace Nesting

def next : Nesting → Char → Nesting
  | outside depth, c =>
    if c = '"' then quoted depth
    else if c = '(' then outside (depth + 1)
    else if c = ')' then outside (depth - 1)
    else outside depth
  | quoted depth, c =>
    if c = '\\' then escaped depth
    else if c = '"' then outside depth
    else quoted depth
  | escaped depth, _ => quoted depth

def after (start : Nesting) (text : Text) : Nesting := text.foldl next start

theorem afterAppend (start : Nesting) (left right : Text) :
    start.after (left ++ right) = (start.after left).after right := by
  simp [after, List.foldl_append]

end Nesting

def closeGroup : Nesting → Text → Option (Text × Text)
  | _, [] => none
  | here, c :: rest =>
    if here = .outside 1 ∧ c = ')' then some ([], rest)
    else (closeGroup (here.next c) rest).map fun found => (c :: found.1, found.2)

def word : Nesting → Text → Option (Text × Text)
  | here, [] => if here = .outside 0 then some ([], []) else none
  | here, c :: rest =>
    if here = .outside 0 ∧ Text.isBlank c then some ([], c :: rest)
    else (word (here.next c) rest).map fun found => (c :: found.1, found.2)

theorem closeGroupSplit {here : Nesting} {text inner rest : Text}
    (h : closeGroup here text = some (inner, rest)) : text = inner ++ ')' :: rest := by
  induction text generalizing here inner with
  | nil => simp [closeGroup] at h
  | cons c tail ih =>
    simp only [closeGroup] at h
    split at h
    · rename_i closed
      cases h
      simp [closed.2]
    · obtain ⟨found, step, same⟩ := Option.map_eq_some_iff.mp h
      cases same
      simp [ih step]

theorem wordSplit {here : Nesting} {text taken rest : Text}
    (h : word here text = some (taken, rest)) : text = taken ++ rest := by
  induction text generalizing here taken with
  | nil =>
    simp only [word] at h
    split at h <;> cases h
    rfl
  | cons c tail ih =>
    simp only [word] at h
    split at h
    · cases h; rfl
    · obtain ⟨found, step, same⟩ := Option.map_eq_some_iff.mp h
      cases same
      simp [ih step]

theorem wordNonempty {c : Char} {tail taken rest : Text} (visible : Text.isBlank c = false)
    (h : word (.outside 0) (c :: tail) = some (taken, rest)) : taken ≠ [] := by
  simp only [word, visible] at h
  simp only [Bool.false_eq_true, and_false, if_false] at h
  obtain ⟨found, _, same⟩ := Option.map_eq_some_iff.mp h
  cases same
  simp

end Sigil.Token
