import CleanArchitecture.StandardLibrary

/-! # String helpers of the server -/

namespace CleanArchitecture

/-- Comparison with a lower-case text, ignoring the case of the first string. -/
def iequals (s1 s2 : Bytes) : Bool :=
  s1.map tolower == s2

def ltrim (s : Bytes) : Bytes :=
  s.dropWhile isspace

/-- The reverse search finds the last byte that is not a blank, and everything
after it is erased. -/
def rtrim (s : Bytes) : Bytes :=
  (s.reverse.dropWhile isspace).reverse

def trim (s : Bytes) : Bytes :=
  rtrim (ltrim s)

end CleanArchitecture
