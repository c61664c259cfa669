import Sigil.Text.Basic
import Sigil.Text.Alphabetic
import Sigil.Text.Numeric

/-!
Identifiers: one or more letters, numbers and underscores.
-/
namespace Sigil.Text

def isWordChar (c : Char) : Bool := isAlphabetic c || isNumeric c || c == '_'

def isIdentifier (text : Text) : Bool := !text.isEmpty && text.all isWordChar

def takeIdentifier (text : Text) : Option (Text × Text) :=
  match text.takeWhile isWordChar with
  | [] => none
  | name => some (name, text.dropWhile isWordChar)

theorem takeIdentifierSplit {text name rest : Text} (h : takeIdentifier text = some (name, rest)) :
    text = name ++ rest ∧ isIdentifier name = true := by
  unfold takeIdentifier at h
  split at h
  · cases h
  · rename_i taken nonempty
    cases h
    refine ⟨List.takeWhile_append_dropWhile.symm, ?_⟩
    have filled : text.takeWhile isWordChar ≠ [] := fun empty => nonempty empty
    simp [isIdentifier, filled, List.all_takeWhile]

end Sigil.Text
