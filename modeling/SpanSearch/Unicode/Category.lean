import SpanSearch.Unicode.Name
import SpanSearch.Unicode.Category.Letters
import SpanSearch.Unicode.Category.Marks
import SpanSearch.Unicode.Category.Numbers
import SpanSearch.Unicode.Category.Punctuation
import SpanSearch.Unicode.Category.Symbols

/-!
# General categories

Every code point is in one of the small categories; large ones gather several of them.

* `Unicode.letters`, `Unicode.marks`, `Unicode.numbers`      large categories
* `Unicode.punctuation`, `Unicode.symbols`, `Unicode.separators`
* `Unicode.unassigned`       code points that no version uses yet
* `Unicode.categories`       all categories with their names
-/

namespace SpanSearch.Unicode

def decimalNumbers : Rule := .ranges digits

def casedLetters : Rule := .union [uppercaseLetters, lowercaseLetters, titlecaseLetters]

def letters : Rule := .union [casedLetters, modifierLetters, otherLetters]

def marks : Rule := .union [nonspacingMarks, spacingMarks, enclosingMarks]

def numbers : Rule := .union [decimalNumbers, letterNumbers, otherNumbers]

def punctuation : Rule := .union
  [connectorPunctuation, dashPunctuation, openPunctuation, closePunctuation, initialPunctuation,
   finalPunctuation, otherPunctuation]

def symbols : Rule := .union [mathSymbols, currencySymbols, modifierSymbols, otherSymbols]

def separators : Rule := .union [spaceSeparators, lineSeparators, paragraphSeparators]

/-- code points that are in none of the other categories -/
def unassigned : Rule := .complement (.union
  [letters, marks, numbers, punctuation, symbols, separators, controls, formats, surrogates,
   privateUse])

/-- all that is neither seen nor separates.  The surrogates are among it, so that its ranges run
across them. -/
def others : Rule := .union [controls, formats, surrogates, privateUse, unassigned]

def anyCharacter : Rule := .ranges [(0x0, 0x10FFFF)]

def assigned : Rule := .complement unassigned

/-- the categories, and three sets that are asked for like categories.  Surrogates are no
characters, so their category cannot be asked for. -/
def categories : List Entry := [
  ⟨["Any"], anyCharacter⟩,
  ⟨["Assigned"], assigned⟩,
  ⟨["ASCII"], .ranges [(0x0, 0x7F)]⟩,
  ⟨["L", "Letter"], letters⟩,
  ⟨["LC", "Cased_Letter"], casedLetters⟩,
  ⟨["Lu", "Uppercase_Letter"], uppercaseLetters⟩,
  ⟨["Ll", "Lowercase_Letter"], lowercaseLetters⟩,
  ⟨["Lt", "Titlecase_Letter"], titlecaseLetters⟩,
  ⟨["Lm", "Modifier_Letter"], modifierLetters⟩,
  ⟨["Lo", "Other_Letter"], otherLetters⟩,
  ⟨["M", "Mark", "Combining_Mark"], marks⟩,
  ⟨["Mn", "Nonspacing_Mark"], nonspacingMarks⟩,
  ⟨["Mc", "Spacing_Mark"], spacingMarks⟩,
  ⟨["Me", "Enclosing_Mark"], enclosingMarks⟩,
  ⟨["N", "Number"], numbers⟩,
  ⟨["Nd", "Decimal_Number", "digit"], decimalNumbers⟩,
  ⟨["Nl", "Letter_Number"], letterNumbers⟩,
  ⟨["No", "Other_Number"], otherNumbers⟩,
  ⟨["P", "Punctuation", "punct"], punctuation⟩,
  ⟨["Pc", "Connector_Punctuation"], connectorPunctuation⟩,
  ⟨["Pd", "Dash_Punctuation"], dashPunctuation⟩,
  ⟨["Ps", "Open_Punctuation"], openPunctuation⟩,
  ⟨["Pe", "Close_Punctuation"], closePunctuation⟩,
  ⟨["Pi", "Initial_Punctuation"], initialPunctuation⟩,
  ⟨["Pf", "Final_Punctuation"], finalPunctuation⟩,
  ⟨["Po", "Other_Punctuation"], otherPunctuation⟩,
  ⟨["S", "Symbol"], symbols⟩,
  ⟨["Sm", "Math_Symbol"], mathSymbols⟩,
  ⟨["Sc", "Currency_Symbol"], currencySymbols⟩,
  ⟨["Sk", "Modifier_Symbol"], modifierSymbols⟩,
  ⟨["So", "Other_Symbol"], otherSymbols⟩,
  ⟨["Z", "Separator"], separators⟩,
  ⟨["Zs", "Space_Separator"], spaceSeparators⟩,
  ⟨["Zl", "Line_Separator"], lineSeparators⟩,
  ⟨["Zp", "Paragraph_Separator"], paragraphSeparators⟩,
  ⟨["C", "Other"], others⟩,
  ⟨["Cc", "Control", "cntrl"], controls⟩,
  ⟨["Cf", "Format"], formats⟩,
  ⟨["Co", "Private_Use"], privateUse⟩,
  ⟨["Cn", "Unassigned"], unassigned⟩]

end SpanSearch.Unicode
