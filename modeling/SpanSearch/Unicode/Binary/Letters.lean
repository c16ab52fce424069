import SpanSearch.Unicode.Binary.Additions
import SpanSearch.Unicode.Category
import SpanSearch.Unicode.Folding

/-!
# Letters in a wider sense, and their case

The categories see one use of each character.  These properties add the characters that are also
used like letters of a kind, the signs that a word can have between its letters, and the
characters that a change of case alters or looks past.  Most changes of case show in the simple
foldings; the others have no single counterpart.

* `lowercase`, `uppercase`, `cased`   whatever has a case
* `alphabetic`                        whatever is used like a letter
* `math`                              whatever is used in formulas
* `midLetter`, `midNumLet`            signs between letters, and between letters or digits
* `caseIgnorable`                     whatever a change of case looks past
* `foldSources`, `foldTargets`        the characters on either side of the simple foldings
* `changesWhenCasefolded`, `changesWhenLowercased`, `changesWhenUppercased`
* `changesWhenTitlecased`, `changesWhenCasemapped`
-/

namespace SpanSearch.Unicode

def lowercase : Rule := .union [lowercaseLetters, otherLowercase]

def uppercase : Rule := .union [uppercaseLetters, otherUppercase]

def cased : Rule := .union [lowercase, uppercase, titlecaseLetters]

def alphabetic : Rule := .union
  [lowercase, uppercase, titlecaseLetters, modifierLetters, otherLetters, letterNumbers,
   otherAlphabetic]

def math : Rule := .union [mathSymbols, otherMath]

/-! ## signs inside words -/

def midLetter : Rule := .ranges
  [(0x3A, 0x3A), (0xB7, 0xB7), (0x387, 0x387), (0x55F, 0x55F), (0x5F4, 0x5F4), (0x2027, 0x2027),
   (0xFE13, 0xFE13), (0xFE55, 0xFE55), (0xFF1A, 0xFF1A)]

def midNumLet : Rule := .ranges
  [(0x2E, 0x2E), (0x2018, 0x2019), (0x2024, 0x2024), (0xFE52, 0xFE52), (0xFF07, 0xFF07),
   (0xFF0E, 0xFF0E)]

def apostrophe : Rule := .ranges [(0x27, 0x27)]

def caseIgnorable : Rule := .union
  [nonspacingMarks, enclosingMarks, formats, modifierLetters, modifierSymbols, midLetter,
   midNumLet, apostrophe]

/-! ## changes of case -/

def foldSources : Rule := .union [.ranges (folds.map fun (a, _) => (a, a))]

def foldTargets : Rule := .union [.ranges (folds.map fun (_, b) => (b, b))]

/-- characters that fold to several -/
def foldsToSeveral : Rule := .ranges
  [(0xDF, 0xDF), (0x130, 0x130), (0x149, 0x149), (0x587, 0x587), (0x1E9A, 0x1E9A),
   (0x1F80, 0x1F87), (0x1F90, 0x1F97), (0x1FA0, 0x1FA7), (0x1FB2, 0x1FB4), (0x1FB7, 0x1FB7),
   (0x1FC2, 0x1FC4), (0x1FC7, 0x1FC7), (0x1FF2, 0x1FF4), (0x1FF7, 0x1FF7), (0xFB00, 0xFB06),
   (0xFB13, 0xFB17)]

/-- a mark that its normal form turns into what it would fold to -/
def prosgegrammeni : Rule := .ranges [(0x1FBE, 0x1FBE)]

def changesWhenCasefolded : Rule := .union [.diff foldSources prosgegrammeni, foldsToSeveral]

def cherokeeCapitals : Rule := .ranges [(0x13A0, 0x13F5)]

/-- the capital `I` with a dot, whose small counterpart is a pair of characters -/
def dottedCapitalI : Rule := .ranges [(0x130, 0x130)]

def changesWhenLowercased : Rule := .union
  [.diff foldSources lowercase, dottedCapitalI, cherokeeCapitals]

/-- small letters whose capitals are several characters, and the small `i` without a dot -/
def smallWithoutCounterpart : Rule := .ranges
  [(0x131, 0x131), (0x149, 0x149), (0x1F0, 0x1F0), (0x390, 0x390), (0x3B0, 0x3B0),
   (0x587, 0x587), (0x1E96, 0x1E9A), (0x1F50, 0x1F50), (0x1F52, 0x1F52), (0x1F54, 0x1F54),
   (0x1F56, 0x1F56), (0x1FB2, 0x1FB2), (0x1FB4, 0x1FB4), (0x1FB6, 0x1FB7), (0x1FC2, 0x1FC2),
   (0x1FC4, 0x1FC4), (0x1FC6, 0x1FC7), (0x1FD2, 0x1FD3), (0x1FD6, 0x1FD7), (0x1FE2, 0x1FE4),
   (0x1FE6, 0x1FE7), (0x1FF2, 0x1FF2), (0x1FF4, 0x1FF4), (0x1FF6, 0x1FF7), (0xFB00, 0xFB06),
   (0xFB13, 0xFB17)]

def changesWhenUppercased : Rule := .diff
  (.union
    [foldTargets, .inter foldSources lowercase, titlecaseLetters, smallWithoutCounterpart])
  cherokeeCapitals

/-- small letters that stay small at the beginning of a title -/
def georgianSmall : Rule := .ranges [(0x10D0, 0x10FA), (0x10FD, 0x10FF)]

/-- pairs of capitals, of which a title keeps the first -/
def capitalPairs : Rule := .ranges
  [(0x1C4, 0x1C4), (0x1C7, 0x1C7), (0x1CA, 0x1CA), (0x1F1, 0x1F1)]

def changesWhenTitlecased : Rule := .union
  [.diff changesWhenUppercased (.union [titlecaseLetters, georgianSmall]), capitalPairs]

def changesWhenCasemapped : Rule := .union
  [changesWhenLowercased, changesWhenUppercased, changesWhenTitlecased]

end SpanSearch.Unicode
