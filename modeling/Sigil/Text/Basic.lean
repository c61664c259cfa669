import Sigil.Text.Blank

/-!
Text is a list of characters, so every scanner is a recursion on the text itself.
Trimming drops blanks at both ends. A text is cut into lines at line feeds; one carriage return
right before a line feed belongs to the line end, and a final line feed opens no further line.
-/
namespace Sigil

abbrev Text := List Char

namespace Text

def trimStart (text : Text) : Text := text.dropWhile isBlank

def trimEnd (text : Text) : Text := (text.reverse.dropWhile isBlank).reverse

def trim (text : Text) : Text := text.trimStart.trimEnd

def isBlankText (text : Text) : Bool := text.all isBlank

def lines : Text → List Text
  | [] => []
  | '\n' :: rest => [] :: lines rest
  | '\r' :: '\n' :: rest => [] :: lines rest
  | c :: rest =>
    match lines rest with
    | [] => [[c]]
    | line :: more => (c :: line) :: more

def joinLines : List Text → Text
  | [] => []
  | [line] => line
  | line :: more => line ++ '\n' :: joinLines more

def dropLineEnding (line : Text) : Text :=
  (line.reverse.dropWhile fun c => c == '\n' || c == '\r').reverse

def fields (separator : Char) : Text → List Text
  | [] => [[]]
  | c :: rest =>
    if c = separator then [] :: fields separator rest
    else match fields separator rest with
      | [] => [[c]]
      | piece :: more => (c :: piece) :: more

def utf8Size : Text → Nat
  | [] => 0
  | c :: rest => c.utf8Size + utf8Size rest

theorem trimStartBlankFree {text : Text} {c : Char} {rest : Text} (h : text.trimStart = c :: rest) :
    isBlank c = false := by
  induction text with
  | nil => simp [trimStart] at h
  | cons a tail ih =>
    by_cases blank : isBlank a = true
    · exact ih (by simpa [trimStart, blank] using h)
    · simp only [trimStart, List.dropWhile_cons, blank] at h
      cases h
      simpa using blank

theorem trimStartLength (text : Text) : text.trimStart.length ≤ text.length :=
  (List.dropWhile_sublist _).length_le

theorem trimLength (text : Text) : text.trim.length ≤ text.length := by
  have back : text.trimStart.trimEnd.length ≤ text.trimStart.length := by
    simpa [trimEnd] using (List.dropWhile_sublist isBlank (l := text.trimStart.reverse)).length_le
  exact Nat.le_trans back (trimStartLength text)

theorem fieldsNonempty (separator : Char) (text : Text) : fields separator text ≠ [] := by
  cases text with
  | nil => simp [fields]
  | cons c rest =>
    simp only [fields]
    split
    · simp
    · split <;> simp

end Text
end Sigil
