import Sigil.Text.Basic

/-!
The order of texts by code points, and sets of texts kept in that order.
-/
namespace Sigil.Text

def compare : Text → Text → Ordering
  | [], [] => .eq
  | [], _ :: _ => .lt
  | _ :: _, [] => .gt
  | a :: left, b :: right => if a < b then .lt else if b < a then .gt else compare left right

def sort (texts : List Text) : List Text := texts.mergeSort fun a b => (compare a b).isLE

def insertOrdered (text : Text) : List Text → List Text
  | [] => [text]
  | first :: rest =>
    if text = first then first :: rest
    else if (compare text first).isLT then text :: first :: rest
    else first :: insertOrdered text rest

theorem memInsertOrdered {text other : Text} {set : List Text} :
    other ∈ insertOrdered text set ↔ other = text ∨ other ∈ set := by
  induction set with
  | nil => simp [insertOrdered]
  | cons first rest ih =>
    simp only [insertOrdered]
    split
    · rename_i same; subst same; simp
    · split
      · simp
      · simp only [List.mem_cons, ih]
        exact or_left_comm

end Sigil.Text
