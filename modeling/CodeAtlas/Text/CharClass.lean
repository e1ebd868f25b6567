import CodeAtlas.Text.CharTable

/-!
Character classes and case mappings over all code points.  The first 128 code points are decided by
comparison, the others by table.
-/

namespace CodeAtlas

def isAscii (c : Char) : Bool := c.toNat < 128

/-- The general categories of characters.  Their order is that of the numbers in the table. -/
inductive Category where
  | upperLetter
  | lowerLetter
  | titleLetter
  | modifierLetter
  | otherLetter
  | nonspacingMark
  | spacingMark
  | enclosingMark
  | decimalNumber
  | letterNumber
  | otherNumber
  | connector
  | dash
  | opening
  | closing
  | initialQuote
  | finalQuote
  | otherPunctuation
  | mathSymbol
  | currencySymbol
  | modifierSymbol
  | otherSymbol
  | spaceSeparator
  | lineSeparator
  | paragraphSeparator
  | control
  | format
  | surrogate
  | privateUse
  | unassigned
  deriving DecidableEq, Repr, Inhabited

namespace Category

def all : Array Category :=
  #[upperLetter, lowerLetter, titleLetter, modifierLetter, otherLetter, nonspacingMark, spacingMark,
    enclosingMark, decimalNumber, letterNumber, otherNumber, connector, dash, opening, closing,
    initialQuote, finalQuote, otherPunctuation, mathSymbol, currencySymbol, modifierSymbol,
    otherSymbol, spaceSeparator, lineSeparator, paragraphSeparator, control, format, surrogate,
    privateUse, unassigned]

def ofChar (c : Char) : Category :=
  all[CharTable.category.stretch c.toNat]?.getD unassigned

/-- The two letters that stand for a category; the first of them names its group. -/
def code : Category → String
  | upperLetter => "Lu"
  | lowerLetter => "Ll"
  | titleLetter => "Lt"
  | modifierLetter => "Lm"
  | otherLetter => "Lo"
  | nonspacingMark => "Mn"
  | spacingMark => "Mc"
  | enclosingMark => "Me"
  | decimalNumber => "Nd"
  | letterNumber => "Nl"
  | otherNumber => "No"
  | connector => "Pc"
  | dash => "Pd"
  | opening => "Ps"
  | closing => "Pe"
  | initialQuote => "Pi"
  | finalQuote => "Pf"
  | otherPunctuation => "Po"
  | mathSymbol => "Sm"
  | currencySymbol => "Sc"
  | modifierSymbol => "Sk"
  | otherSymbol => "So"
  | spaceSeparator => "Zs"
  | lineSeparator => "Zl"
  | paragraphSeparator => "Zp"
  | control => "Cc"
  | format => "Cf"
  | surrogate => "Cs"
  | privateUse => "Co"
  | unassigned => "Cn"

def group (category : Category) : Char := category.code.toList.head?.getD 'C'

end Category

def isLetter (c : Char) : Bool :=
  if isAscii c then c.isAlpha else (Category.ofChar c).group == 'L'

def isDecimalDigit (c : Char) : Bool :=
  if isAscii c then c.isDigit else Category.ofChar c == .decimalNumber

def isUpper (c : Char) : Bool :=
  if isAscii c then c.isUpper else Category.ofChar c == .upperLetter

/-- Whether a character leaves a mark of its own when printed; the plain space counts. -/
def isPrintable (c : Char) : Bool :=
  if isAscii c then 0x20 ≤ c.toNat && c.toNat < 0x7F
  else ['L', 'M', 'N', 'P', 'S'].contains (Category.ofChar c).group

def isBlank (c : Char) : Bool :=
  let n := c.toNat
  (0x09 ≤ n && n ≤ 0x0D) || n == 0x20 || n == 0x85 || n == 0xA0 || n == 0x1680 ||
    (0x2000 ≤ n && n ≤ 0x200A) || n == 0x2028 || n == 0x2029 || n == 0x202F || n == 0x205F ||
    n == 0x3000

/-- The letters, digits and underscore of the first 128 code points. -/
def isWordChar (c : Char) : Bool :=
  isAscii c && (c.isAlphanum || c == '_')

def toLower (c : Char) : Char :=
  if isAscii c then c.toLower else Char.ofNat (CharTable.toLower.image c.toNat)

def toUpper (c : Char) : Char :=
  if isAscii c then c.toUpper else Char.ofNat (CharTable.toUpper.image c.toNat)

/-- The least character that differs from `c` by case alone, so that two characters differ by case
alone exactly when this function agrees on them. -/
def caseKey (c : Char) : Char :=
  if isAscii c then c.toUpper else Char.ofNat (CharTable.toLeast.image c.toNat)

end CodeAtlas
