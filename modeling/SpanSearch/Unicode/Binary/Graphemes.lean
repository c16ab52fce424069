import SpanSearch.Unicode.Category
import SpanSearch.Unicode.Binary.Additions
import SpanSearch.Unicode.Binary.Signs
import SpanSearch.Unicode.Binary.Technical
import SpanSearch.Unicode.Blank

/-!
# How characters make up what a reader sees

* `whiteSpace`                  blanks and line ends
* `graphemeExtend`              characters that go with the one before them
* `graphemeBase`                characters that others can go with
* `defaultIgnorableCodePoint`   characters without a shape that a font may leave out
-/

namespace SpanSearch.Unicode

def whiteSpace : Rule := .ranges blanks

def graphemeExtend : Rule := .union [nonspacingMarks, enclosingMarks, otherGraphemeExtend]

def graphemeBase : Rule := .complement (.union
  [controls, formats, surrogates, privateUse, unassigned, lineSeparators, paragraphSeparators,
   graphemeExtend])

/-- formats that are shown: marks for annotations and signs that control the layout of
hieroglyphs -/
def shownFormats : Rule := .ranges [(0xFFF9, 0xFFFB), (0x13430, 0x1343F)]

def defaultIgnorableCodePoint : Rule := .diff
  (.union [otherDefaultIgnorableCodePoint, formats, variationSelector])
  (.union [whiteSpace, shownFormats, prependedConcatenationMark])

end SpanSearch.Unicode
