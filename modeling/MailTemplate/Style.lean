/-!
# Style sheets

A style sheet is wrapped in a `style` element, which takes the place of every occurrence of a
placeholder in a document. Occurrences are found from the left and do not overlap.
-/

namespace MailTemplate.Style

def defaultPlaceholder : String := "<style></style>"

def openTag : List Char := ['<', 's', 't', 'y', 'l', 'e', '>']

def closeTag : List Char := ['<', '/', 's', 't', 'y', 'l', 'e', '>']

/-- The style sheet in its element, with a line break behind it. -/
def wrap (css : String) : String := String.ofList (openTag ++ css.toList ++ closeTag ++ ['\n'])

/-- Adds a character in front of the first piece. -/
def extend (c : Char) : List (List Char) → List (List Char)
  | [] => [[c]]
  | p :: ps => (c :: p) :: ps

/-- The pieces of a text between the occurrences of the non-empty text `q :: qs`. -/
def pieces (q : Char) (qs : List Char) (cs : List Char) : List (List Char) :=
  match cs with
  | [] => [[]]
  | c :: cs =>
      if (q :: qs).isPrefixOf (c :: cs) then [] :: pieces q qs (cs.drop qs.length)
      else extend c (pieces q qs cs)
termination_by cs.length
decreasing_by all_goals simp only [List.length_drop, List.length_cons]; omega

/-- The document with `block` in place of the placeholder; an empty placeholder occurs nowhere. -/
def inject (body block placeholder : String) : String :=
  match placeholder.toList with
  | [] => body
  | q :: qs => String.ofList (block.toList.intercalate (pieces q qs body.toList))

end MailTemplate.Style
