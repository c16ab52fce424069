import SpanSearch.Unicode.Binary.Emoji
import SpanSearch.Unicode.Binary.Graphemes
import SpanSearch.Unicode.Binary.Letters
import SpanSearch.Unicode.Binary.Technical
import SpanSearch.Unicode.Script

/-!
# Where text can be broken

Characters by the part that they play between graphemes, words and sentences.

* `graphemeBreaks`   the property Grapheme_Cluster_Break
* `wordBreaks`       the property Word_Break
* `sentenceBreaks`   the property Sentence_Break
-/

namespace SpanSearch.Unicode

def carriageReturn : Rule := .ranges [(0xD, 0xD)]

def newLine : Rule := .ranges [(0xA, 0xA)]

/-- the joiner that makes one sign of its neighbours -/
def zeroWidthJoiner : Rule := .ranges [(0x200D, 0x200D)]

/-! ## graphemes -/

def graphemePrepend : Rule := .union
  [prependedConcatenationMark, .ranges
    [(0xD4E, 0xD4E), (0x111C2, 0x111C3), (0x1193F, 0x1193F), (0x11941, 0x11941),
     (0x11A3A, 0x11A3A), (0x11A84, 0x11A89), (0x11D46, 0x11D46), (0x11F02, 0x11F02)]]

def graphemeControl : Rule := .diff
  (.union
    [lineSeparators, paragraphSeparators, controls, formats,
     .inter unassigned defaultIgnorableCodePoint])
  (.union
    [carriageReturn, newLine, zeroWidthJoiner, graphemeExtend, prependedConcatenationMark])

def graphemeExtension : Rule := .union [graphemeExtend, emojiModifier]

/-- marks that stand apart from the character before them -/
def standingApart : Rule := .ranges
  [(0x102B, 0x102C), (0x1038, 0x1038), (0x1062, 0x1064), (0x1067, 0x106D), (0x1083, 0x1083),
   (0x1087, 0x108C), (0x108F, 0x108F), (0x109A, 0x109C), (0x1A61, 0x1A61), (0x1A63, 0x1A64),
   (0xAA7B, 0xAA7B), (0xAA7D, 0xAA7D), (0x11720, 0x11721)]

def graphemeSpacing : Rule := .union
  [.diff spacingMarks (.union [graphemeExtension, standingApart]),
   .ranges [(0xE33, 0xE33), (0xEB3, 0xEB3)]]

def syllables : Nat × Nat := (0xAC00, 0xD7A3)

/-- how many syllables share their first two sounds -/
def endings : Nat := 28

def openSyllables : Rule := .ranges <|
  (List.range ((syllables.2 + 1 - syllables.1) / endings)).map fun i =>
    (syllables.1 + endings * i, syllables.1 + endings * i)

def closedSyllables : Rule := .diff (.ranges [syllables]) openSyllables

def graphemeBreaks : List Entry := [
  ⟨["CR"], carriageReturn⟩,
  ⟨["LF"], newLine⟩,
  ⟨["CN", "Control"], graphemeControl⟩,
  ⟨["EX", "Extend"], graphemeExtension⟩,
  ⟨["ZWJ"], zeroWidthJoiner⟩,
  ⟨["RI", "Regional_Indicator"], regionalIndicator⟩,
  ⟨["PP", "Prepend"], graphemePrepend⟩,
  ⟨["SM", "SpacingMark"], graphemeSpacing⟩,
  ⟨["L"], .ranges [(0x1100, 0x115F), (0xA960, 0xA97C)]⟩,
  ⟨["V"], .ranges [(0x1160, 0x11A7), (0xD7B0, 0xD7C6)]⟩,
  ⟨["T"], .ranges [(0x11A8, 0x11FF), (0xD7CB, 0xD7FB)]⟩,
  ⟨["LV"], openSyllables⟩,
  ⟨["LVT"], closedSyllables⟩]

/-! ## words -/

/-- marks and the like, which go with the character before them -/
def wordExtend : Rule :=
  .diff (.union [graphemeExtend, spacingMarks, emojiModifier]) zeroWidthJoiner

def wordFormat : Rule := .diff formats (.union
  [graphemeExtend, zeroWidthJoiner, .ranges [(0x200B, 0x200B)]])

/-- the characters of a script by its short name -/
def ofScript (name : String) : Rule :=
  .union ((scripts.filter fun s => s.names.contains name).map Entry.rule)

def wordKatakana : Rule := .union
  [ofScript "Kana", .ranges
    [(0x3031, 0x3035), (0x309B, 0x309C), (0x30A0, 0x30A0), (0x30FC, 0x30FC), (0xFF70, 0xFF70)]]

def hebrewLetter : Rule := .inter (ofScript "Hebr") otherLetters

/-- letters of scripts that leave no room between words -/
def unspacedLetters : Rule := .ranges
  [(0xE01, 0xE30), (0xE32, 0xE33), (0xE40, 0xE46), (0xE81, 0xE82), (0xE84, 0xE84), (0xE86, 0xE8A),
   (0xE8C, 0xEA3), (0xEA5, 0xEA5), (0xEA7, 0xEB0), (0xEB2, 0xEB3), (0xEBD, 0xEBD), (0xEC0, 0xEC4),
   (0xEC6, 0xEC6), (0xEDC, 0xEDF), (0x1000, 0x102A), (0x103F, 0x103F), (0x1050, 0x1055),
   (0x105A, 0x105D), (0x1061, 0x1061), (0x1065, 0x1066), (0x106E, 0x1070), (0x1075, 0x1081),
   (0x108E, 0x108E), (0x1780, 0x17B3), (0x17D7, 0x17D7), (0x17DC, 0x17DC), (0x1950, 0x196D),
   (0x1970, 0x1974), (0x1980, 0x19AB), (0x19B0, 0x19C9), (0x1A20, 0x1A54), (0x1AA7, 0x1AA7),
   (0xA9E0, 0xA9E4), (0xA9E6, 0xA9EF), (0xA9FA, 0xA9FE), (0xAA60, 0xAA76), (0xAA7A, 0xAA7A),
   (0xAA7E, 0xAAAF), (0xAAB1, 0xAAB1), (0xAAB5, 0xAAB6), (0xAAB9, 0xAABD), (0xAAC0, 0xAAC0),
   (0xAAC2, 0xAAC2), (0xAADB, 0xAADD), (0x11700, 0x1171A), (0x11740, 0x11746)]

def letterSigns : Rule := .ranges
  [(0x2C2, 0x2C5), (0x2D2, 0x2D7), (0x2DE, 0x2DF), (0x2E5, 0x2EB), (0x2ED, 0x2ED), (0x2EF, 0x2FF),
   (0x55A, 0x55C), (0x55E, 0x55E), (0x58A, 0x58A), (0x5F3, 0x5F3), (0xA708, 0xA716),
   (0xA720, 0xA721), (0xA789, 0xA78A), (0xAB5B, 0xAB5B)]

def wordLetter : Rule := .union
  [.diff alphabetic (.union
    [ideographic, wordKatakana, ofScript "Hira", wordExtend, hebrewLetter, unspacedLetters]),
   letterSigns]

def wordBreaks : List Entry := [
  ⟨["CR"], carriageReturn⟩,
  ⟨["LF"], newLine⟩,
  ⟨["NL", "Newline"], .ranges [(0xB, 0xC), (0x85, 0x85), (0x2028, 0x2029)]⟩,
  ⟨["Extend"], wordExtend⟩,
  ⟨["ZWJ"], zeroWidthJoiner⟩,
  ⟨["FO", "Format"], wordFormat⟩,
  ⟨["RI", "Regional_Indicator"], regionalIndicator⟩,
  ⟨["KA", "Katakana"], wordKatakana⟩,
  ⟨["HL", "Hebrew_Letter"], hebrewLetter⟩,
  ⟨["LE", "ALetter"], wordLetter⟩,
  ⟨["SQ", "Single_Quote"], apostrophe⟩,
  ⟨["DQ", "Double_Quote"], .ranges [(0x22, 0x22)]⟩,
  ⟨["MB", "MidNumLet"], midNumLet⟩,
  ⟨["ML", "MidLetter"], midLetter⟩,
  ⟨["MN", "MidNum"], .ranges
    [(0x2C, 0x2C), (0x3B, 0x3B), (0x37E, 0x37E), (0x589, 0x589), (0x60C, 0x60D), (0x66C, 0x66C),
     (0x7F8, 0x7F8), (0x2044, 0x2044), (0xFE10, 0xFE10), (0xFE14, 0xFE14), (0xFE50, 0xFE50),
     (0xFE54, 0xFE54), (0xFF0C, 0xFF0C), (0xFF1B, 0xFF1B)]⟩,
  ⟨["NU", "Numeric"], .union [decimalNumbers, .ranges [(0x66B, 0x66B)]]⟩,
  ⟨["EX", "ExtendNumLet"], .union [connectorPunctuation, .ranges [(0x202F, 0x202F)]]⟩,
  ⟨["WSegSpace"], .diff spaceSeparators (.ranges
    [(0xA0, 0xA0), (0x2007, 0x2007), (0x202F, 0x202F)])⟩]

/-! ## sentences -/

def sentenceExtend : Rule := .union [graphemeExtend, spacingMarks, zeroWidthJoiner]

def sentenceSeparator : Rule := .ranges [(0x85, 0x85), (0x2028, 0x2029)]

/-- small letters of Georgian, which have capitals but no sentence begins with them -/
def georgianLetters : Rule := .ranges
  [(0x10D0, 0x10FA), (0x10FD, 0x10FF), (0x1C90, 0x1CBA), (0x1CBD, 0x1CBF)]

def sentenceLower : Rule := .diff lowercase (.union [graphemeExtend, georgianLetters])

def sentenceUpper : Rule := .diff (.union [uppercase, titlecaseLetters]) georgianLetters

def sentenceLetter : Rule := .diff (.union [alphabetic, .ranges [(0x5F3, 0x5F3)]])
  (.union [sentenceLower, sentenceUpper, sentenceExtend])

/-- full stops, which may also end an abbreviation -/
def fullStops : Rule := .ranges
  [(0x2E, 0x2E), (0x2024, 0x2024), (0xFE52, 0xFE52), (0xFF0E, 0xFF0E)]

/-- quotation marks outside the categories of quotation marks with a direction -/
def plainQuotes : Rule := .ranges
  [(0x22, 0x22), (0x27, 0x27), (0x275B, 0x2760), (0x2E00, 0x2E01), (0x2E06, 0x2E08),
   (0x2E0B, 0x2E0B), (0x1F676, 0x1F678)]

def sentenceClose : Rule := .union
  [openPunctuation, closePunctuation, initialPunctuation, finalPunctuation, plainQuotes]

def sentenceBreaks : List Entry := [
  ⟨["CR"], carriageReturn⟩,
  ⟨["LF"], newLine⟩,
  ⟨["EX", "Extend"], sentenceExtend⟩,
  ⟨["SE", "Sep"], sentenceSeparator⟩,
  ⟨["FO", "Format"], .diff formats sentenceExtend⟩,
  ⟨["SP", "Sp"], .diff whiteSpace (.union [sentenceSeparator, carriageReturn, newLine])⟩,
  ⟨["LO", "Lower"], sentenceLower⟩,
  ⟨["UP", "Upper"], sentenceUpper⟩,
  ⟨["LE", "OLetter"], sentenceLetter⟩,
  ⟨["NU", "Numeric"], .union [decimalNumbers, .ranges [(0x66B, 0x66C)]]⟩,
  ⟨["AT", "ATerm"], fullStops⟩,
  ⟨["SC", "SContinue"], .ranges
    [(0x2C, 0x2D), (0x3A, 0x3A), (0x55D, 0x55D), (0x60C, 0x60D), (0x7F8, 0x7F8), (0x1802, 0x1802),
     (0x1808, 0x1808), (0x2013, 0x2014), (0x3001, 0x3001), (0xFE10, 0xFE11), (0xFE13, 0xFE13),
     (0xFE31, 0xFE32), (0xFE50, 0xFE51), (0xFE55, 0xFE55), (0xFE58, 0xFE58), (0xFE63, 0xFE63),
     (0xFF0C, 0xFF0D), (0xFF1A, 0xFF1A), (0xFF64, 0xFF64)]⟩,
  ⟨["ST", "STerm"], .diff sentenceTerminal fullStops⟩,
  ⟨["CL", "Close"], sentenceClose⟩]

end SpanSearch.Unicode
