import Highlighter.Regex.CharSet

/-!
# Named sets of characters

The sets that `\\p{...}` and `[:name:]` refer to.  Names of properties are
compared without regard to case, spaces, hyphens and underscores, and a leading
`is` is dropped.
-/
namespace Highlighter.Regex.CharSet

def normalizeName (name : List Char) : List Char :=
  let significant (chars : List Char) : List Char :=
    (chars.filter fun char =>
      char.toNat < 128 && char != ' ' && char != '_' && char != '-').map Char.toLower
  match name with
  | first :: second :: rest =>
      if first.toLower = 'i' && second.toLower = 's' then
        let short := significant rest
        if short = ['c'] then "isc".toList else short
      else
        significant name
  | _ => significant name

def binaryProperty? : (name : String) → Option CharSet
  | "alphabetic" | "alpha" =>
      some (.union (.categories (.letterNumber :: Unicode.Category.letters))
        (.table Unicode.alphabeticExtra))
  | "lowercase" | "lower" =>
      some (.union (.categories [.lowercaseLetter]) (.table Unicode.lowercaseExtra))
  | "uppercase" | "upper" =>
      some (.union (.categories [.uppercaseLetter]) (.table Unicode.uppercaseExtra))
  | "cased" =>
      some (.union (.categories Unicode.Category.casedLetters)
        (.union (.table Unicode.lowercaseExtra) (.table Unicode.uppercaseExtra)))
  | "caseignorable" | "ci" =>
      some (.union
        (.categories [.nonspacingMark, .enclosingMark, .format, .modifierLetter, .modifierSymbol])
        (ofRanges (Unicode.midWordPunctuation.map fun code => (Char.ofNat code, Char.ofNat code))))
  | "graphemeextend" | "grext" =>
      some (.union (.categories [.nonspacingMark, .enclosingMark])
        (.table Unicode.graphemeExtendExtra))
  | "graphemebase" | "grbase" =>
      some (.complement (.union
        (.categories (.lineSeparator :: .paragraphSeparator :: .nonspacingMark ::
          .enclosingMark :: Unicode.Category.others))
        (.table Unicode.graphemeExtendExtra)))
  | "math" =>
      some (.union (.categories [.mathSymbol]) (.table Unicode.mathExtra))
  | "whitespace" | "wspace" | "space" => some .space
  | "idstart" | "ids" => some idStart
  | "idcontinue" | "idc" => some idContinue
  | "xidstart" | "xids" =>
      some (.diff idStart (.union compatibilityForms
        (ofRanges [('\u0e33', '\u0e33'), ('\u0eb3', '\u0eb3'), ('\uff9e', '\uff9f')])))
  | "xidcontinue" | "xidc" => some (.diff idContinue compatibilityForms)
  | name =>
      (Unicode.propertyTables.find? fun names => names.1.contains name).map fun names =>
        .table (.ofText names.2)
where
  /-- Characters that can begin an identifier. -/
  idStart : CharSet :=
    .diff
      (.union (.categories (.letterNumber :: Unicode.Category.letters))
        (ofRanges [('\u1885', '\u1886'), ('\u2118', '\u2118'), ('\u212e', '\u212e'),
          ('\u309b', '\u309c')]))
      (single '\u2e2f')
  /-- Characters that can stand in an identifier. -/
  idContinue : CharSet :=
    .union idStart
      (.union
        (.categories [.nonspacingMark, .spacingMark, .decimalNumber, .connectorPunctuation])
        (ofRanges [('\u00b7', '\u00b7'), ('\u0387', '\u0387'), ('\u1369', '\u1371'),
          ('\u19da', '\u19da'), ('\u200c', '\u200d'), ('\u30fb', '\u30fb'),
          ('\uff65', '\uff65')]))
  /-- Characters that stop being identifier characters when they are normalized. -/
  compatibilityForms : CharSet :=
    ofRanges [('\u037a', '\u037a'), ('\u309b', '\u309c'), ('\ufc5e', '\ufc63'),
      ('\ufdfa', '\ufdfb'), ('\ufe70', '\ufe70'), ('\ufe72', '\ufe72'), ('\ufe74', '\ufe74'),
      ('\ufe76', '\ufe76'), ('\ufe78', '\ufe78'), ('\ufe7a', '\ufe7a'), ('\ufe7c', '\ufe7c'),
      ('\ufe7e', '\ufe7e')]

/-- The set of a general category or of several.  Surrogates are no characters, so
their category has no set. -/
def generalCategory? : (name : String) → Option CharSet
  | "any" => some (.complement .empty)
  | "assigned" => some (.complement (.categories [.unassigned]))
  | "ascii" => some (.range '\x00' '\x7f')
  | "other" | "c" => some (.categories Unicode.Category.others)
  | "control" | "cc" | "cntrl" => some (.categories [.control])
  | "format" | "cf" => some (.categories [.format])
  | "unassigned" | "cn" => some (.categories [.unassigned])
  | "privateuse" | "co" => some (.categories [.privateUse])
  | "letter" | "l" => some (.categories Unicode.Category.letters)
  | "casedletter" | "lc" => some (.categories Unicode.Category.casedLetters)
  | "lowercaseletter" | "ll" => some (.categories [.lowercaseLetter])
  | "modifierletter" | "lm" => some (.categories [.modifierLetter])
  | "otherletter" | "lo" => some (.categories [.otherLetter])
  | "titlecaseletter" | "lt" => some (.categories [.titlecaseLetter])
  | "uppercaseletter" | "lu" => some (.categories [.uppercaseLetter])
  | "mark" | "m" | "combiningmark" => some (.categories Unicode.Category.marks)
  | "spacingmark" | "mc" => some (.categories [.spacingMark])
  | "enclosingmark" | "me" => some (.categories [.enclosingMark])
  | "nonspacingmark" | "mn" => some (.categories [.nonspacingMark])
  | "number" | "n" => some (.categories Unicode.Category.numbers)
  | "decimalnumber" | "nd" | "digit" => some (.categories [.decimalNumber])
  | "letternumber" | "nl" => some (.categories [.letterNumber])
  | "othernumber" | "no" => some (.categories [.otherNumber])
  | "punctuation" | "p" | "punct" => some (.categories Unicode.Category.punctuation)
  | "connectorpunctuation" | "pc" => some (.categories [.connectorPunctuation])
  | "dashpunctuation" | "pd" => some (.categories [.dashPunctuation])
  | "closepunctuation" | "pe" => some (.categories [.closePunctuation])
  | "finalpunctuation" | "pf" => some (.categories [.finalPunctuation])
  | "initialpunctuation" | "pi" => some (.categories [.initialPunctuation])
  | "otherpunctuation" | "po" => some (.categories [.otherPunctuation])
  | "openpunctuation" | "ps" => some (.categories [.openPunctuation])
  | "symbol" | "s" => some (.categories Unicode.Category.symbols)
  | "currencysymbol" | "sc" => some (.categories [.currencySymbol])
  | "modifiersymbol" | "sk" => some (.categories [.modifierSymbol])
  | "mathsymbol" | "sm" => some (.categories [.mathSymbol])
  | "othersymbol" | "so" => some (.categories [.otherSymbol])
  | "separator" | "z" => some (.categories Unicode.Category.separators)
  | "lineseparator" | "zl" => some (.categories [.lineSeparator])
  | "paragraphseparator" | "zp" => some (.categories [.paragraphSeparator])
  | "spaceseparator" | "zs" => some (.categories [.spaceSeparator])
  | _ => none

def scriptCode? (name : List Char) : Option (List Char) :=
  (Unicode.Script.names.find? fun names =>
    names.any fun candidate => normalizeName candidate = name).bind List.head?

/-- The set that a single name stands for: a binary property, a general
category or a script. -/
def property? (name : List Char) : Option CharSet :=
  let normalized := normalizeName name
  ((binaryProperty? (String.ofList normalized)).or
    (generalCategory? (String.ofList normalized))).or
      ((scriptCode? normalized).map .script)

def propertyValue? (name value : List Char) : Option CharSet :=
  let normalized := normalizeName value
  match String.ofList (normalizeName name) with
  | "gc" | "generalcategory" => generalCategory? (String.ofList normalized)
  | "sc" | "script" => (scriptCode? normalized).map .script
  | "scx" | "scriptextensions" => (scriptCode? normalized).map .usedIn
  | _ => none

def asciiClass? : (name : String) → Option CharSet
  | "alnum" => some (ofRanges [('0', '9'), ('A', 'Z'), ('a', 'z')])
  | "alpha" => some (ofRanges [('A', 'Z'), ('a', 'z')])
  | "ascii" => some (.range '\x00' '\x7f')
  | "blank" => some (ofRanges [('\t', '\t'), (' ', ' ')])
  | "cntrl" => some (ofRanges [('\x00', '\x1f'), ('\x7f', '\x7f')])
  | "digit" => some (.range '0' '9')
  | "graph" => some (.range '!' '~')
  | "lower" => some (.range 'a' 'z')
  | "print" => some (.range ' ' '~')
  | "punct" => some (ofRanges [('!', '/'), (':', '@'), ('[', '`'), ('\x7b', '~')])
  | "space" => some (ofRanges [('\t', '\r'), (' ', ' ')])
  | "upper" => some (.range 'A' 'Z')
  | "word" => some (ofRanges [('0', '9'), ('A', 'Z'), ('_', '_'), ('a', 'z')])
  | "xdigit" => some hexDigit
  | _ => none

end Highlighter.Regex.CharSet
