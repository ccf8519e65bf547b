/-!
# Keywords

The words of the language that look like names to a scanner but never name a method.
-/

namespace ActionCalls.Source

/-- The words that never name a method. -/
def keywords : List String :=
  ["abstract", "assert", "break", "case", "catch", "class", "continue", "default", "do", "else",
   "enum", "extends", "final", "finally", "for", "if", "implements", "import", "instanceof",
   "interface", "native", "new", "package", "private", "protected", "public", "return", "static",
   "super", "switch", "synchronized", "this", "throw", "throws", "try", "volatile", "while",
   "yield"]

/-- Is the word reserved by the language? -/
def isKeyword (word : String) : Bool :=
  keywords.contains word

end ActionCalls.Source
