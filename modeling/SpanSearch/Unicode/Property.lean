import SpanSearch.Unicode.Age
import SpanSearch.Unicode.Binary
import SpanSearch.Unicode.Break
import SpanSearch.Unicode.Category
import SpanSearch.Unicode.Script.Extensions

/-!
# Sets of characters by property

* `Unicode.setNamed?`    the set that a name alone asks for
* `Unicode.setValued?`   the set of the characters for which a property has a value
-/

namespace SpanSearch.Unicode

/-- short names of categories that are also short names of properties with values, and stand for
those where they stand alone: `sc` is Script and `lc` is Lowercase_Mapping -/
def takenNames : List (List Char) := [['s', 'c'], ['l', 'c']]

/-- the characters that a name alone asks for: those with a property that is had or lacked, those of
a general category or those of a script -/
def setNamed? (name : List Char) : Option RangeSet :=
  let key := nameKey name
  if takenNames.contains key then none
  else Entry.find? (binaryProperties ++ categories ++ scripts) key

theorem setNamed?_of_taken {name : List Char} (h : takenNames.contains (nameKey name) = true) :
    setNamed? name = none := by
  simp only [setNamed?, h, if_true]

/-- a property with values, by name: the sets for its values -/
def valuesOf? (property : List Char) : Option (List Char → Option RangeSet) :=
  match String.ofList (nameKey property) with
  | "gc" | "generalcategory" => some (Entry.find? categories)
  | "sc" | "script" => some (Entry.find? scripts)
  | "scx" | "scriptextensions" => some scriptExtension?
  | "age" => some age?
  | "gcb" | "graphemeclusterbreak" => some (Entry.find? graphemeBreaks)
  | "wb" | "wordbreak" => some (Entry.find? wordBreaks)
  | "sb" | "sentencebreak" => some (Entry.find? sentenceBreaks)
  | _ => none

/-- the characters for which a property has a value -/
def setValued? (property value : List Char) : Option RangeSet :=
  (valuesOf? property).bind fun sets => sets (nameKey value)

end SpanSearch.Unicode
