/-!
The characters that count as white space: those of the Unicode property `White_Space`.
-/

namespace Lightpay.Whitespace

def isSeparator (c : Char) : Bool :=
  c = ' ' || c = '\u00a0' || c = '\u1680' || '\u2000' ≤ c && c ≤ '\u200a' || c = '\u202f' ||
    c = '\u205f' || c = '\u3000'

/-- A line feed, a carriage return, or a separator of lines or paragraphs. -/
def isLineEnd (c : Char) : Bool :=
  c = '\n' || c = '\r' || c = '\u2028' || c = '\u2029'

def isSpace (c : Char) : Bool :=
  isSeparator c || '\t' ≤ c && c ≤ '\r' || c = '\u0085' || c = '\u2028' || c = '\u2029'

def trimEnd (cs : List Char) : List Char :=
  (cs.reverse.dropWhile isSpace).reverse

def trim (cs : List Char) : List Char :=
  trimEnd (cs.dropWhile isSpace)

end Lightpay.Whitespace
