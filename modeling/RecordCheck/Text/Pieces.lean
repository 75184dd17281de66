/-!
Text cut into pieces at separators.
-/

namespace RecordCheck.Text

/-- The pieces before, between and after the separators. -/
def split (separates : Char → Bool) : List Char → List (List Char)
  | [] => [[]]
  | c :: rest =>
    if separates c then [] :: split separates rest
    else (split separates rest).modifyHead (c :: ·)

/-- The pieces that are not empty. -/
def pieces (separates : Char → Bool) (text : List Char) : List (List Char) :=
  (split separates text).filter fun piece => !piece.isEmpty

end RecordCheck.Text
