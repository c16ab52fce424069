import SpanSearch.Unicode.Binary.Additions
import SpanSearch.Unicode.Binary.Technical
import SpanSearch.Unicode.Category

/-!
# Identifiers

What the names in a program may be made of.

* `idStart`, `idContinue`     the first character of a name, and the others
* `xidStart`, `xidContinue`   the same without characters that normal forms take apart into others
-/

namespace SpanSearch.Unicode

/-- signs and blanks with a meaning of their own in patterns -/
def patternSigns : Rule := .union [patternSyntax, patternWhiteSpace]

def idStart : Rule := .diff (.union [letters, letterNumbers, otherIDStart]) patternSigns

def idContinue : Rule := .diff
  (.union
    [idStart, nonspacingMarks, spacingMarks, decimalNumbers, connectorPunctuation,
     otherIDContinue])
  patternSigns

/-- characters whose normal forms hold what no name may hold -/
def brokenByNormalForms : Rule := .ranges
  [(0x37A, 0x37A), (0x309B, 0x309C), (0xFC5E, 0xFC63), (0xFDFA, 0xFDFB), (0xFE70, 0xFE70),
   (0xFE72, 0xFE72), (0xFE74, 0xFE74), (0xFE76, 0xFE76), (0xFE78, 0xFE78), (0xFE7A, 0xFE7A),
   (0xFE7C, 0xFE7C), (0xFE7E, 0xFE7E)]

/-- characters whose normal forms begin with what may not begin a name -/
def misplacedByNormalForms : Rule := .ranges [(0xE33, 0xE33), (0xEB3, 0xEB3), (0xFF9E, 0xFF9F)]

def xidStart : Rule := .diff idStart (.union [brokenByNormalForms, misplacedByNormalForms])

def xidContinue : Rule := .diff idContinue brokenByNormalForms

end SpanSearch.Unicode
