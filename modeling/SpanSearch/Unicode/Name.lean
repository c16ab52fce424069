import SpanSearch.Unicode.Rule

/-!
# Names of properties

Case, blanks, hyphens, underscores and a leading `is` make no difference in the name of a property
or of one of its values.

* `Unicode.nameKey`         what counts in a name
* `Unicode.Entry`           a set of characters under several names
* `Unicode.Entry.find?`     the set that goes by a name
* `nameKey_is`, `nameKey_isc`   names that begin with `is`
-/

namespace SpanSearch.Unicode

def countsInName (c : Char) : Bool :=
  decide (c.toNat ≤ 0x7F) && c != ' ' && c != '_' && c != '-'

def plainKey (name : List Char) : List Char := (name.filter countsInName).map Char.toLower

/-- what counts in a name.  The name `isc` is no `c` with something before it: it stands for
a property of its own. -/
def nameKey (name : List Char) : List Char :=
  match name with
  | a :: b :: rest =>
    if a.toLower = 'i' ∧ b.toLower = 's' then
      if plainKey rest = ['c'] then ['i', 's', 'c'] else plainKey rest
    else plainKey name
  | _ => plainKey name

theorem plainKey_append (a b : List Char) : plainKey (a ++ b) = plainKey a ++ plainKey b := by
  simp [plainKey]

theorem nameKey_is (name : List Char) (h : plainKey name ≠ ['c']) :
    nameKey ('i' :: 's' :: name) = plainKey name := by
  simp [nameKey, h]

theorem nameKey_isc : nameKey ['i', 's', 'C'] = ['i', 's', 'c'] := by decide

/-- a set of characters and the names that it goes by -/
structure Entry where
  names : List String
  rule : Rule

namespace Entry

def isNamed (key : List Char) (e : Entry) : Bool := e.names.any fun n => nameKey n.toList == key

/-- the characters of the first entry that goes by a name -/
def find? (entries : List Entry) (key : List Char) : Option RangeSet :=
  (entries.find? (isNamed key)).map fun e => e.rule.members

end Entry
end SpanSearch.Unicode
