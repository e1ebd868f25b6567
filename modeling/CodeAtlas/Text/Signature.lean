import CodeAtlas.Text.Blank

/-!
Signatures: texts on one line, with a bound on their length.
-/

namespace CodeAtlas

def maxSignatureLength : Nat := 200

/-- The words of a text with single spaces between them, cut to the bound. -/
def collapseSignature (text : String) : String :=
  let joined := " ".intercalate (words text)
  if joined.length > maxSignatureLength then
    String.ofList (joined.toList.take maxSignatureLength)
  else
    joined

end CodeAtlas
