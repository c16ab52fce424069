import SpanSearch.Unicode.Name
import SpanSearch.Unicode.Binary.Emoji
import SpanSearch.Unicode.Binary.Graphemes
import SpanSearch.Unicode.Binary.Identifiers
import SpanSearch.Unicode.Binary.Letters
import SpanSearch.Unicode.Binary.Signs
import SpanSearch.Unicode.Binary.Technical

/-!
# Properties that a character has or lacks

* `Unicode.binaryProperties`   the properties with their names
-/

namespace SpanSearch.Unicode

def binaryProperties : List Entry := [
  ⟨["AHex", "ASCII_Hex_Digit"], asciiHexDigit⟩,
  ⟨["Alpha", "Alphabetic"], alphabetic⟩,
  ⟨["Bidi_C", "Bidi_Control"], bidiControl⟩,
  ⟨["Bidi_M", "Bidi_Mirrored"], bidiMirrored⟩,
  ⟨["CI", "Case_Ignorable"], caseIgnorable⟩,
  ⟨["Cased"], cased⟩,
  ⟨["CWCF", "Changes_When_Casefolded"], changesWhenCasefolded⟩,
  ⟨["CWCM", "Changes_When_Casemapped"], changesWhenCasemapped⟩,
  ⟨["CWL", "Changes_When_Lowercased"], changesWhenLowercased⟩,
  ⟨["CWT", "Changes_When_Titlecased"], changesWhenTitlecased⟩,
  ⟨["CWU", "Changes_When_Uppercased"], changesWhenUppercased⟩,
  ⟨["Dash"], dash⟩,
  ⟨["DI", "Default_Ignorable_Code_Point"], defaultIgnorableCodePoint⟩,
  ⟨["Dep", "Deprecated"], deprecated⟩,
  ⟨["Dia", "Diacritic"], diacritic⟩,
  ⟨["Emoji"], emoji⟩,
  ⟨["EComp", "Emoji_Component"], emojiComponent⟩,
  ⟨["EMod", "Emoji_Modifier"], emojiModifier⟩,
  ⟨["EBase", "Emoji_Modifier_Base"], emojiModifierBase⟩,
  ⟨["EPres", "Emoji_Presentation"], emojiPresentation⟩,
  ⟨["ExtPict", "Extended_Pictographic"], extendedPictographic⟩,
  ⟨["Ext", "Extender"], extender⟩,
  ⟨["Gr_Base", "Grapheme_Base"], graphemeBase⟩,
  ⟨["Gr_Ext", "Grapheme_Extend"], graphemeExtend⟩,
  ⟨["Gr_Link", "Grapheme_Link"], graphemeLink⟩,
  ⟨["Hex", "Hex_Digit"], hexDigit⟩,
  ⟨["Hyphen"], hyphen⟩,
  ⟨["IDSB", "IDS_Binary_Operator"], idsBinaryOperator⟩,
  ⟨["IDST", "IDS_Trinary_Operator"], idsTrinaryOperator⟩,
  ⟨["IDC", "ID_Continue"], idContinue⟩,
  ⟨["IDS", "ID_Start"], idStart⟩,
  ⟨["Ideo", "Ideographic"], ideographic⟩,
  ⟨["Join_C", "Join_Control"], joinControl⟩,
  ⟨["LOE", "Logical_Order_Exception"], logicalOrderException⟩,
  ⟨["Lower", "Lowercase"], lowercase⟩,
  ⟨["Math"], math⟩,
  ⟨["NChar", "Noncharacter_Code_Point"], noncharacterCodePoint⟩,
  ⟨["OAlpha", "Other_Alphabetic"], otherAlphabetic⟩,
  ⟨["ODI", "Other_Default_Ignorable_Code_Point"], otherDefaultIgnorableCodePoint⟩,
  ⟨["OGr_Ext", "Other_Grapheme_Extend"], otherGraphemeExtend⟩,
  ⟨["OIDC", "Other_ID_Continue"], otherIDContinue⟩,
  ⟨["OIDS", "Other_ID_Start"], otherIDStart⟩,
  ⟨["OLower", "Other_Lowercase"], otherLowercase⟩,
  ⟨["OMath", "Other_Math"], otherMath⟩,
  ⟨["OUpper", "Other_Uppercase"], otherUppercase⟩,
  ⟨["Pat_Syn", "Pattern_Syntax"], patternSyntax⟩,
  ⟨["Pat_WS", "Pattern_White_Space"], patternWhiteSpace⟩,
  ⟨["PCM", "Prepended_Concatenation_Mark"], prependedConcatenationMark⟩,
  ⟨["QMark", "Quotation_Mark"], quotationMark⟩,
  ⟨["Radical"], radical⟩,
  ⟨["RI", "Regional_Indicator"], regionalIndicator⟩,
  ⟨["STerm", "Sentence_Terminal"], sentenceTerminal⟩,
  ⟨["SD", "Soft_Dotted"], softDotted⟩,
  ⟨["Term", "Terminal_Punctuation"], terminalPunctuation⟩,
  ⟨["UIdeo", "Unified_Ideograph"], unifiedIdeograph⟩,
  ⟨["Upper", "Uppercase"], uppercase⟩,
  ⟨["VS", "Variation_Selector"], variationSelector⟩,
  ⟨["WSpace", "White_Space", "space"], whiteSpace⟩,
  ⟨["XIDC", "XID_Continue"], xidContinue⟩,
  ⟨["XIDS", "XID_Start"], xidStart⟩]

end SpanSearch.Unicode
