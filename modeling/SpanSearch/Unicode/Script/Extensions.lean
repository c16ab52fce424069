import SpanSearch.Unicode.Script

/-!
# Scripts with the characters that they share

* `Unicode.shared`             characters that belong to several scripts
* `Unicode.withShared`         all characters that a script uses
* `Unicode.scriptExtension?`   the same by name
-/

namespace SpanSearch.Unicode

/-- characters that several scripts share, or that one script has for its own although they count as
common to all -/
structure Shared where
  /-- the short names of the scripts -/
  scripts : List String
  ranges : List (Nat × Nat)

def shared : List Shared := [
  ⟨["Grek"], [(0x342, 0x342), (0x345, 0x345), (0x1DC0, 0x1DC1)]⟩,
  ⟨["Latn"], [(0x363, 0x36F)]⟩,
  ⟨["Cyrl", "Perm"], [(0x483, 0x483)]⟩,
  ⟨["Cyrl", "Glag"], [(0x484, 0x484), (0x487, 0x487), (0x2E43, 0x2E43), (0xA66F, 0xA66F)]⟩,
  ⟨["Cyrl", "Latn"], [(0x485, 0x486)]⟩,
  ⟨["Arab", "Nkoo", "Rohg", "Syrc", "Thaa", "Yezi"], [(0x60C, 0x60C), (0x61B, 0x61B)]⟩,
  ⟨["Arab", "Syrc", "Thaa"], [(0x61C, 0x61C)]⟩,
  ⟨["Adlm", "Arab", "Nkoo", "Rohg", "Syrc", "Thaa", "Yezi"], [(0x61F, 0x61F)]⟩,
  ⟨["Adlm", "Arab", "Mand", "Mani", "Ougr", "Phlp", "Rohg", "Sogd", "Syrc"], [(0x640, 0x640)]⟩,
  ⟨["Arab", "Syrc"], [(0x64B, 0x655), (0x670, 0x670)]⟩,
  ⟨["Arab", "Thaa", "Yezi"], [(0x660, 0x669)]⟩,
  ⟨["Arab", "Rohg"], [(0x6D4, 0x6D4)]⟩,
  ⟨["Beng", "Deva", "Gran", "Gujr", "Guru", "Knda", "Latn", "Mlym", "Orya", "Shrd", "Taml", "Telu",
    "Tirh"], [(0x951, 0x951)]⟩,
  ⟨["Beng", "Deva", "Gran", "Gujr", "Guru", "Knda", "Latn", "Mlym", "Orya", "Taml", "Telu", "Tirh"],
    [(0x952, 0x952)]⟩,
  ⟨["Beng", "Deva", "Dogr", "Gong", "Gonm", "Gran", "Gujr", "Guru", "Knda", "Mahj", "Mlym", "Nand",
    "Orya", "Sind", "Sinh", "Sylo", "Takr", "Taml", "Telu", "Tirh"], [(0x964, 0x964)]⟩,
  ⟨["Beng", "Deva", "Dogr", "Gong", "Gonm", "Gran", "Gujr", "Guru", "Knda", "Limb", "Mahj", "Mlym",
    "Nand", "Orya", "Sind", "Sinh", "Sylo", "Takr", "Taml", "Telu", "Tirh"], [(0x965, 0x965)]⟩,
  ⟨["Deva", "Dogr", "Kthi", "Mahj"], [(0x966, 0x96F)]⟩,
  ⟨["Beng", "Cakm", "Sylo"], [(0x9E6, 0x9EF)]⟩,
  ⟨["Guru", "Mult"], [(0xA66, 0xA6F)]⟩,
  ⟨["Gujr", "Khoj"], [(0xAE6, 0xAEF)]⟩,
  ⟨["Gran", "Taml"], [(0xBE6, 0xBF3), (0x11301, 0x11301), (0x11303, 0x11303), (0x1133B, 0x1133C),
    (0x11FD0, 0x11FD1), (0x11FD3, 0x11FD3)]⟩,
  ⟨["Knda", "Nand"], [(0xCE6, 0xCEF)]⟩,
  ⟨["Cakm", "Mymr", "Tale"], [(0x1040, 0x1049)]⟩,
  ⟨["Geor", "Latn"], [(0x10FB, 0x10FB)]⟩,
  ⟨["Buhd", "Hano", "Tagb", "Tglg"], [(0x1735, 0x1736)]⟩,
  ⟨["Mong", "Phag"], [(0x1802, 0x1803), (0x1805, 0x1805)]⟩,
  ⟨["Beng", "Deva", "Gran", "Knda"], [(0x1CD0, 0x1CD0), (0x1CD2, 0x1CD2)]⟩,
  ⟨["Deva"], [(0x1CD1, 0x1CD1), (0x1CD4, 0x1CD4), (0x1CDB, 0x1CDB), (0x1CDE, 0x1CDF),
    (0x1CE2, 0x1CE8), (0x1CEB, 0x1CEC), (0x1CEE, 0x1CF1)]⟩,
  ⟨["Deva", "Gran"], [(0x1CD3, 0x1CD3), (0x1CF3, 0x1CF3), (0x1CF8, 0x1CF9)]⟩,
  ⟨["Beng", "Deva"], [(0x1CD5, 0x1CD6), (0x1CD8, 0x1CD8), (0x1CE1, 0x1CE1), (0x1CEA, 0x1CEA),
    (0x1CED, 0x1CED), (0x1CF5, 0x1CF6), (0xA8F1, 0xA8F1)]⟩,
  ⟨["Deva", "Shrd"], [(0x1CD7, 0x1CD7), (0x1CD9, 0x1CD9), (0x1CDC, 0x1CDD), (0x1CE0, 0x1CE0)]⟩,
  ⟨["Deva", "Knda", "Mlym", "Orya", "Taml", "Telu"], [(0x1CDA, 0x1CDA)]⟩,
  ⟨["Deva", "Nand"], [(0x1CE9, 0x1CE9)]⟩,
  ⟨["Beng", "Deva", "Gran", "Knda", "Nand", "Orya", "Telu", "Tirh"], [(0x1CF2, 0x1CF2)]⟩,
  ⟨["Deva", "Gran", "Knda"], [(0x1CF4, 0x1CF4)]⟩,
  ⟨["Beng"], [(0x1CF7, 0x1CF7)]⟩,
  ⟨["Nand"], [(0x1CFA, 0x1CFA)]⟩,
  ⟨["Cyrl", "Syrc"], [(0x1DF8, 0x1DF8)]⟩,
  ⟨["Syrc"], [(0x1DFA, 0x1DFA)]⟩,
  ⟨["Latn", "Mong"], [(0x202F, 0x202F)]⟩,
  ⟨["Deva", "Gran", "Latn"], [(0x20F0, 0x20F0)]⟩,
  ⟨["Bopo", "Hang", "Hani", "Hira", "Kana", "Yiii"], [(0x3001, 0x3002), (0x3008, 0x3011),
    (0x3014, 0x301B), (0x30FB, 0x30FB), (0xFF61, 0xFF65)]⟩,
  ⟨["Bopo", "Hang", "Hani", "Hira", "Kana"], [(0x3003, 0x3003), (0x3013, 0x3013), (0x301C, 0x301F),
    (0x3030, 0x3030), (0x3037, 0x3037), (0xFE45, 0xFE46)]⟩,
  ⟨["Hani"], [(0x3006, 0x3006), (0x303E, 0x303F), (0x3190, 0x319F), (0x31C0, 0x31E3),
    (0x3220, 0x3247), (0x3280, 0x32B0), (0x32C0, 0x32CB), (0x32FF, 0x32FF), (0x3358, 0x3370),
    (0x337B, 0x337F), (0x33E0, 0x33FE), (0x1D360, 0x1D371), (0x1F250, 0x1F251)]⟩,
  ⟨["Bopo", "Hani"], [(0x302A, 0x302D)]⟩,
  ⟨["Hira", "Kana"], [(0x3031, 0x3035), (0x3099, 0x309C), (0x30A0, 0x30A0), (0x30FC, 0x30FC),
    (0xFF70, 0xFF70), (0xFF9E, 0xFF9F)]⟩,
  ⟨["Hani", "Hira", "Kana"], [(0x303C, 0x303D)]⟩,
  ⟨["Hani", "Latn"], [(0xA700, 0xA707)]⟩,
  ⟨["Deva", "Dogr", "Gujr", "Guru", "Khoj", "Knda", "Kthi", "Mahj", "Mlym", "Modi", "Nand", "Sind",
    "Takr", "Tirh"], [(0xA830, 0xA832)]⟩,
  ⟨["Deva", "Dogr", "Gujr", "Guru", "Khoj", "Knda", "Kthi", "Mahj", "Modi", "Nand", "Sind", "Takr",
    "Tirh"], [(0xA833, 0xA835)]⟩,
  ⟨["Deva", "Dogr", "Gujr", "Guru", "Khoj", "Kthi", "Mahj", "Modi", "Sind", "Takr", "Tirh"],
    [(0xA836, 0xA839)]⟩,
  ⟨["Deva", "Taml"], [(0xA8F3, 0xA8F3)]⟩,
  ⟨["Kali", "Latn", "Mymr"], [(0xA92E, 0xA92E)]⟩,
  ⟨["Bugi", "Java"], [(0xA9CF, 0xA9CF)]⟩,
  ⟨["Arab", "Nkoo"], [(0xFD3E, 0xFD3F)]⟩,
  ⟨["Arab", "Thaa"], [(0xFDF2, 0xFDF2), (0xFDFD, 0xFDFD)]⟩,
  ⟨["Cpmn", "Cprt", "Linb"], [(0x10100, 0x10101)]⟩,
  ⟨["Cprt", "Linb"], [(0x10102, 0x10102), (0x10137, 0x1013F)]⟩,
  ⟨["Cprt", "Lina", "Linb"], [(0x10107, 0x10133)]⟩,
  ⟨["Arab", "Copt"], [(0x102E0, 0x102FB)]⟩,
  ⟨["Mani", "Ougr"], [(0x10AF2, 0x10AF2)]⟩,
  ⟨["Dupl"], [(0x1BCA0, 0x1BCA3)]⟩]

def allShared : Rule := .union (shared.map fun s => .ranges s.ranges)

/-- the characters of a script and those that it shares.  A character that is listed as shared
counts for the listed scripts alone. -/
def withShared (script : Entry) : Rule :=
  let mine := shared.filter fun s => script.names.any s.scripts.contains
  .union (.diff script.rule allShared :: mine.map fun s => .ranges s.ranges)

/-- the property Script_Extensions for a script by name -/
def scriptExtension? (key : List Char) : Option RangeSet :=
  (scripts.find? (Entry.isNamed key)).map fun script => (withShared script).members

end SpanSearch.Unicode
