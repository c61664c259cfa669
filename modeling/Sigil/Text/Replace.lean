import Sigil.Text.Basic

/-!
Searching for a text inside another one, and replacing every occurrence from the left.
-/
namespace Sigil.Text

def occurs (needle text : Text) : Bool := (String.ofList text).contains (String.ofList needle)

/-- Replaces occurrences from the left; the first `skip` characters belong to one already replaced. -/
def replaceFrom (needle replacement : Text) : Nat → Text → Text
  | _, [] => []
  | skip + 1, _ :: rest => replaceFrom needle replacement skip rest
  | 0, c :: rest =>
    if needle.isPrefixOf (c :: rest) then
      replacement ++ replaceFrom needle replacement (needle.length - 1) rest
    else c :: replaceFrom needle replacement 0 rest

def replace (needle replacement text : Text) : Text := replaceFrom needle replacement 0 text

theorem occursIff {needle text : Text} : occurs needle text = true ↔ needle <:+: text := by
  simp [occurs, String.contains_string_iff]

end Sigil.Text
