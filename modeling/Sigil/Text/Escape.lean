import Sigil.Text.Basic

/-!
Escapes inside a quoted string: a line feed, a tab, a quote and a backslash are written with a
backslash before them. A backslash before any other character, or at the end, stands for itself.
-/
namespace Sigil.Text

def escape : Text → Text
  | [] => []
  | c :: rest =>
    match c with
    | '\n' => '\\' :: 'n' :: escape rest
    | '\t' => '\\' :: 't' :: escape rest
    | '"' => '\\' :: '"' :: escape rest
    | '\\' => '\\' :: '\\' :: escape rest
    | _ => c :: escape rest

def unescape : Text → Text
  | [] => []
  | '\\' :: c :: rest =>
    match c with
    | 'n' => '\n' :: unescape rest
    | 't' => '\t' :: unescape rest
    | '"' => '"' :: unescape rest
    | '\\' => '\\' :: unescape rest
    | _ => '\\' :: c :: unescape rest
  | c :: rest => c :: unescape rest

theorem unescapeEscape (text : Text) : unescape (escape text) = text := by
  induction text with
  | nil => rfl
  | cons c rest ih =>
    simp only [escape]
    split
    · simp [unescape, ih]
    · simp [unescape, ih]
    · simp [unescape, ih]
    · simp [unescape, ih]
    · rename_i plain
      unfold unescape
      split
      · rename_i h; simp at h
      · rename_i h
        exact absurd (List.cons.inj h).1 plain
      · rename_i h
        rw [← (List.cons.inj h).1, ← (List.cons.inj h).2, ih]

end Sigil.Text
