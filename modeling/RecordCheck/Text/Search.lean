/-!
Texts inside texts.
-/

namespace RecordCheck.Text

/-- The first text is a part of the second, in one piece. -/
def hasInfix (part : List Char) : List Char → Bool
  | [] => part.isEmpty
  | c :: rest => part.isPrefixOf (c :: rest) || hasInfix part rest

def contains (text part : String) : Bool := hasInfix part.toList text.toList

def startsWith (text start : String) : Bool := start.toList.isPrefixOf text.toList

def endsWith (text ending : String) : Bool := ending.toList.isSuffixOf text.toList

end RecordCheck.Text
