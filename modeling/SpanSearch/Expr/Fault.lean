/-!
# What is wrong with a pattern

* `SyntaxFault`   why a text is not a pattern
-/

namespace SpanSearch

inductive SyntaxFault where
  /-- the pattern ends inside an escape -/
  | escapeUnfinished
  /-- a letter or sign that may not be escaped -/
  | escapeUnknown
  /-- a number escaped, which would refer back to a group -/
  | backReference
  | hexDigitExpected
  | hexEmpty
  /-- a number that is no character -/
  | codePointInvalid
  /-- a class by property that the tables do not have -/
  | propertyUnknown
  | classUnclosed
  /-- what stands in a class is not a character or class -/
  | classItemInvalid
  /-- a range of characters with its bounds in the wrong order -/
  | classRangeInvalid
  /-- a class without members -/
  | classEmpty
  /-- a repetition with nothing before it -/
  | repetitionMissing
  | countUnclosed
  | countMissing
  | countTooLarge
  /-- the least count is above the greatest -/
  | countInvalid
  | groupUnclosed
  | groupUnopened
  | groupNameInvalid
  | groupNameTaken
  | lookAround
  | flagUnknown
  | flagTwice
  /-- flags that end in the sign that turns flags off -/
  | flagDangling
  | flagsUnfinished
  /-- groups, lists and classes inside each other beyond the limit -/
  | nestedTooDeep
  /-- a character above ASCII where Unicode is off -/
  | unicodeOff
  /-- a part that could match what is no text -/
  | notText
  deriving DecidableEq, Repr

end SpanSearch
