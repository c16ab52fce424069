import SpanSearch.Unicode.Rule

/-!
# Characters with a technical role, ideographs

* `asciiHexDigit`           the property ASCII_Hex_Digit
* `hexDigit`                the property Hex_Digit
* `bidiControl`             the property Bidi_Control
* `joinControl`             the property Join_Control
* `deprecated`              the property Deprecated
* `noncharacterCodePoint`   the property Noncharacter_Code_Point
* `variationSelector`       the property Variation_Selector
* `patternSyntax`           the property Pattern_Syntax
* `patternWhiteSpace`       the property Pattern_White_Space
* `ideographic`             the property Ideographic
* `unifiedIdeograph`        the property Unified_Ideograph
* `radical`                 the property Radical
* `idsBinaryOperator`       the property IDS_Binary_Operator
* `idsTrinaryOperator`      the property IDS_Trinary_Operator
-/

namespace SpanSearch.Unicode

def asciiHexDigit : Rule := .ranges [(0x30, 0x39), (0x41, 0x46), (0x61, 0x66)]

def hexDigit : Rule := .ranges
  [(0x30, 0x39), (0x41, 0x46), (0x61, 0x66), (0xFF10, 0xFF19), (0xFF21, 0xFF26), (0xFF41, 0xFF46)]

def bidiControl : Rule := .ranges
  [(0x61C, 0x61C), (0x200E, 0x200F), (0x202A, 0x202E), (0x2066, 0x2069)]

def joinControl : Rule := .ranges [(0x200C, 0x200D)]

def deprecated : Rule := .ranges
  [(0x149, 0x149), (0x673, 0x673), (0xF77, 0xF77), (0xF79, 0xF79), (0x17A3, 0x17A4),
   (0x206A, 0x206F), (0x2329, 0x232A), (0xE0001, 0xE0001)]

/-- Noncharacter_Code_Point -/
def noncharacterCodePoint : Rule := .ranges
  [(0xFDD0, 0xFDEF), (0xFFFE, 0xFFFF), (0x1FFFE, 0x1FFFF), (0x2FFFE, 0x2FFFF), (0x3FFFE, 0x3FFFF),
   (0x4FFFE, 0x4FFFF), (0x5FFFE, 0x5FFFF), (0x6FFFE, 0x6FFFF), (0x7FFFE, 0x7FFFF),
   (0x8FFFE, 0x8FFFF), (0x9FFFE, 0x9FFFF), (0xAFFFE, 0xAFFFF), (0xBFFFE, 0xBFFFF),
   (0xCFFFE, 0xCFFFF), (0xDFFFE, 0xDFFFF), (0xEFFFE, 0xEFFFF), (0xFFFFE, 0xFFFFF),
   (0x10FFFE, 0x10FFFF)]

def variationSelector : Rule := .ranges
  [(0x180B, 0x180D), (0x180F, 0x180F), (0xFE00, 0xFE0F), (0xE0100, 0xE01EF)]

/-- Pattern_Syntax -/
def patternSyntax : Rule := .ranges
  [(0x21, 0x2F), (0x3A, 0x40), (0x5B, 0x5E), (0x60, 0x60), (0x7B, 0x7E), (0xA1, 0xA7), (0xA9, 0xA9),
   (0xAB, 0xAC), (0xAE, 0xAE), (0xB0, 0xB1), (0xB6, 0xB6), (0xBB, 0xBB), (0xBF, 0xBF), (0xD7, 0xD7),
   (0xF7, 0xF7), (0x2010, 0x2027), (0x2030, 0x203E), (0x2041, 0x2053), (0x2055, 0x205E),
   (0x2190, 0x245F), (0x2500, 0x2775), (0x2794, 0x2BFF), (0x2E00, 0x2E7F), (0x3001, 0x3003),
   (0x3008, 0x3020), (0x3030, 0x3030), (0xFD3E, 0xFD3F), (0xFE45, 0xFE46)]

def patternWhiteSpace : Rule := .ranges
  [(0x9, 0xD), (0x20, 0x20), (0x85, 0x85), (0x200E, 0x200F), (0x2028, 0x2029)]

/-- Ideographic -/
def ideographic : Rule := .ranges
  [(0x3006, 0x3007), (0x3021, 0x3029), (0x3038, 0x303A), (0x3400, 0x4DBF), (0x4E00, 0x9FFF),
   (0xF900, 0xFA6D), (0xFA70, 0xFAD9), (0x16FE4, 0x16FE4), (0x17000, 0x187F7), (0x18800, 0x18CD5),
   (0x18D00, 0x18D08), (0x1B170, 0x1B2FB), (0x20000, 0x2A6DF), (0x2A700, 0x2B739),
   (0x2B740, 0x2B81D), (0x2B820, 0x2CEA1), (0x2CEB0, 0x2EBE0), (0x2F800, 0x2FA1D),
   (0x30000, 0x3134A), (0x31350, 0x323AF)]

/-- Unified_Ideograph -/
def unifiedIdeograph : Rule := .ranges
  [(0x3400, 0x4DBF), (0x4E00, 0x9FFF), (0xFA0E, 0xFA0F), (0xFA11, 0xFA11), (0xFA13, 0xFA14),
   (0xFA1F, 0xFA1F), (0xFA21, 0xFA21), (0xFA23, 0xFA24), (0xFA27, 0xFA29), (0x20000, 0x2A6DF),
   (0x2A700, 0x2B739), (0x2B740, 0x2B81D), (0x2B820, 0x2CEA1), (0x2CEB0, 0x2EBE0),
   (0x30000, 0x3134A), (0x31350, 0x323AF)]

def radical : Rule := .ranges [(0x2E80, 0x2E99), (0x2E9B, 0x2EF3), (0x2F00, 0x2FD5)]

def idsBinaryOperator : Rule := .ranges [(0x2FF0, 0x2FF1), (0x2FF4, 0x2FFB)]

def idsTrinaryOperator : Rule := .ranges [(0x2FF2, 0x2FF3)]

end SpanSearch.Unicode
