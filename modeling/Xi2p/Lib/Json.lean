import Xi2p.Lib.AssocMap
import Xi2p.Lib.Text

/-!
# JSON

A reader of JSON texts. What is read is a property tree: objects and arrays have children, in the
order of the text, the children of an array without a name; strings, numbers and the words `true`,
`false` and `null` are data.

* `IsUtf8`: the encoding of a text.
* `string`: a string with its escapes.
* `readJson`: the property tree of a text, if it is a JSON text.
-/

namespace Json

open Text

/-! ## Property trees -/

/-- `boost::property_tree::ptree`, as far as `read_json` builds it. -/
inductive PTree
  | leaf (data : List UInt8)
  | node (children : List (List UInt8 × PTree))

namespace PTree

/-- `data()`, and `get_value` for a string. -/
def data : PTree → List UInt8
  | leaf data => data
  | node _ => []

/-- The children, in order. -/
def children : PTree → List (List UInt8 × PTree)
  | leaf _ => []
  | node children => children

/-- `get_child`, for a path without a dot. -/
def find (tree : PTree) (key : List UInt8) : Option PTree := AssocMap.find tree.children key

end PTree

/-! ## UTF-8 -/

/-- How a text in UTF-8 goes on: so many bytes of a character are missing, and the next one lies
between two bounds. -/
structure Utf8 where
  owed : ℕ
  low : UInt8
  high : UInt8
  deriving DecidableEq

namespace Utf8

/-- Between two characters. -/
def start : Utf8 := ⟨0, 0x80, 0xbf⟩

/-- The first byte of a character: there is no character with a needlessly long code, no surrogate
and no character behind `10ffff`. -/
def first (b : UInt8) : Option Utf8 :=
  if b < 0x80 then some start
  else if b < 0xc2 then none
  else if b < 0xe0 then some ⟨1, 0x80, 0xbf⟩
  else if b = 0xe0 then some ⟨2, 0xa0, 0xbf⟩
  else if b = 0xed then some ⟨2, 0x80, 0x9f⟩
  else if b < 0xf0 then some ⟨2, 0x80, 0xbf⟩
  else if b = 0xf0 then some ⟨3, 0x90, 0xbf⟩
  else if b < 0xf4 then some ⟨3, 0x80, 0xbf⟩
  else if b = 0xf4 then some ⟨3, 0x80, 0x8f⟩
  else none

def step (s : Utf8) (b : UInt8) : Option Utf8 :=
  match s.owed with
  | 0 => first b
  | owed + 1 => if s.low ≤ b ∧ b ≤ s.high then some ⟨owed, 0x80, 0xbf⟩ else none

end Utf8

/-- A text that is encoded in UTF-8. -/
def IsUtf8 (text : List UInt8) : Prop := text.foldlM Utf8.step Utf8.start = some Utf8.start

instance (text : List UInt8) : Decidable (IsUtf8 text) :=
  inferInstanceAs (Decidable (_ = _))

/-- The code of a character that is not a surrogate. -/
def utf8Encode (c : ℕ) : List UInt8 :=
  if c < 0x80 then [UInt8.ofNat c]
  else if c < 0x800 then [UInt8.ofNat (0xc0 + c / 64), UInt8.ofNat (0x80 + c % 64)]
  else if c < 0x10000 then
    [UInt8.ofNat (0xe0 + c / 4096), UInt8.ofNat (0x80 + c / 64 % 64), UInt8.ofNat (0x80 + c % 64)]
  else
    [UInt8.ofNat (0xf0 + c / 262144), UInt8.ofNat (0x80 + c / 4096 % 64),
      UInt8.ofNat (0x80 + c / 64 % 64), UInt8.ofNat (0x80 + c % 64)]

/-! ## Strings -/

abbrev quote : UInt8 := 34

abbrev backslash : UInt8 := 92

abbrev comma : UInt8 := 44

abbrev colon : UInt8 := 58

abbrev openBrace : UInt8 := 123

abbrev closeBrace : UInt8 := 125

abbrev openBracket : UInt8 := 91

abbrev closeBracket : UInt8 := 93

/-- The characters up to the quotation mark that ends a string, and what follows it. -/
def scan : List UInt8 → Option (List UInt8 × List UInt8)
  | [] => none
  | b :: rest =>
    if b = quote then some ([], rest)
    else if b = backslash then
      match rest with
      | [] => none
      | c :: rest => (scan rest).map fun (raw, rest) => (b :: c :: raw, rest)
    else (scan rest).map fun (raw, rest) => (b :: raw, rest)

/-- The value of a hexadecimal digit. -/
def hexValue (b : UInt8) : Option ℕ :=
  if 48 ≤ b ∧ b ≤ 57 then some (b.toNat - 48)
  else if 97 ≤ b ∧ b ≤ 102 then some (b.toNat - 87)
  else if 65 ≤ b ∧ b ≤ 70 then some (b.toNat - 55)
  else none

/-- Four hexadecimal digits. -/
def hex4 : List UInt8 → Option (ℕ × List UInt8)
  | a :: b :: c :: d :: rest => do
    let a ← hexValue a
    let b ← hexValue b
    let c ← hexValue c
    let d ← hexValue d
    return (((a * 16 + b) * 16 + c) * 16 + d, rest)
  | _ => none

/-- What follows `\u`: a character, or the two surrogates of a character. -/
def unicodeEscape (input : List UInt8) : Option (List UInt8 × List UInt8) := do
  let (u, rest) ← hex4 input
  if 0xd800 ≤ u ∧ u < 0xdc00 then
    match rest with
    | 92 :: 117 :: rest =>
      let (v, rest) ← hex4 rest
      if 0xdc00 ≤ v ∧ v < 0xe000 then
        return (utf8Encode (0x10000 + (u - 0xd800) * 0x400 + (v - 0xdc00)), rest)
      else none
    | _ => none
  else if 0xdc00 ≤ u ∧ u < 0xe000 then none
  else return (utf8Encode u, rest)

/-- The character of an escape with one letter. -/
def simpleEscape (b : UInt8) : Option UInt8 :=
  if b = 34 ∨ b = 92 ∨ b = 47 then some b
  else if b = 98 then some 8
  else if b = 102 then some 12
  else if b = 110 then some 10
  else if b = 114 then some 13
  else if b = 116 then some 9
  else none

/-- What follows a backslash: the character it stands for, and the rest. -/
def escape : List UInt8 → Option (List UInt8 × List UInt8)
  | [] => none
  | b :: rest =>
    if b = 117 then unicodeEscape rest else (simpleEscape b).map fun c => ([c], rest)

/-- The characters that a string stands for, in at most so many steps. -/
def unescape : ℕ → List UInt8 → Option (List UInt8)
  | _, [] => some []
  | 0, _ => none
  | steps + 1, b :: rest =>
    if b = backslash then do
      let (c, rest) ← escape rest
      let s ← unescape steps rest
      return c ++ s
    else if b < 32 then none
    else do
      let s ← unescape steps rest
      return b :: s

/-- A string behind its quotation mark. -/
def string (input : List UInt8) : Option (List UInt8 × List UInt8) := do
  let (raw, rest) ← scan input
  let s ← unescape raw.length raw
  return (s, rest)

/-! ## Words and numbers -/

def isDigit (b : UInt8) : Bool := 48 ≤ b && b ≤ 57

/-- A character of a word or of a number. -/
def isLiteralChar (b : UInt8) : Bool :=
  isDigit b || (97 ≤ b && b ≤ 122) || (65 ≤ b && b ≤ 90) || b = 43 || b = 45 || b = 46

/-- A sign is left out. -/
def dropSign (signs s : List UInt8) : List UInt8 :=
  match s with
  | b :: rest => if b ∈ signs then rest else s
  | [] => []

/-- The exponent of a number, or nothing. -/
def isExponent : List UInt8 → Bool
  | [] => true
  | b :: rest =>
    let rest := dropSign [43, 45] rest
    (b = 101 || b = 69) && !rest.isEmpty && rest.all isDigit

/-- The fraction of a number and its exponent. -/
def isFraction : List UInt8 → Bool
  | 46 :: rest => !(rest.takeWhile isDigit).isEmpty && isExponent (rest.dropWhile isDigit)
  | rest => isExponent rest

/-- A number: no zero in front of its first digit. -/
def isNumber (s : List UInt8) : Bool :=
  let s := dropSign [45] s
  let integer := s.takeWhile isDigit
  (integer = [48] || (!integer.isEmpty && integer.head? ≠ some 48)) &&
    isFraction (s.dropWhile isDigit)

def isLiteral (s : List UInt8) : Bool :=
  s = ascii "true" || s = ascii "false" || s = ascii "null" || isNumber s

/-! ## Values -/

def isBlank (b : UInt8) : Bool := b = 32 || b = 9 || b = 10 || b = 13

def skipBlanks (input : List UInt8) : List UInt8 := input.dropWhile isBlank

/-- What follows `b`, if the next character is `b`. -/
def expect (b : UInt8) (input : List UInt8) : Option (List UInt8) :=
  match skipBlanks input with
  | c :: rest => if c = b then some rest else none
  | [] => none

/-- A word or a number. -/
def literal (input : List UInt8) : Option (PTree × List UInt8) :=
  let token := input.takeWhile isLiteralChar
  if isLiteral token then some (.leaf token, input.dropWhile isLiteralChar) else none

mutual

/-- A value; the fuel bounds how deep values are nested. -/
def value : ℕ → List UInt8 → Option (PTree × List UInt8)
  | 0, _ => none
  | fuel + 1, input =>
    match expect openBrace input with
    | some input =>
      match expect closeBrace input with
      | some rest => some (.node [], rest)
      | none => (members fuel input).map fun (ms, rest) => (.node ms, rest)
    | none =>
      match expect openBracket input with
      | some input =>
        match expect closeBracket input with
        | some rest => some (.node [], rest)
        | none => (elements fuel input).map fun (ms, rest) => (.node ms, rest)
      | none =>
        match expect quote input with
        | some input => (string input).map fun (s, rest) => (.leaf s, rest)
        | none => literal (skipBlanks input)

/-- The members of an object that has some, and the brace behind them. -/
def members : ℕ → List UInt8 → Option (List (List UInt8 × PTree) × List UInt8)
  | 0, _ => none
  | fuel + 1, input => do
    let input ← expect quote input
    let (key, input) ← string input
    let input ← expect colon input
    let (v, input) ← value fuel input
    match expect comma input with
    | some input =>
      let (ms, rest) ← members fuel input
      return ((key, v) :: ms, rest)
    | none =>
      let rest ← expect closeBrace input
      return ([(key, v)], rest)

/-- The elements of an array that has some, and the bracket behind them. -/
def elements : ℕ → List UInt8 → Option (List (List UInt8 × PTree) × List UInt8)
  | 0, _ => none
  | fuel + 1, input => do
    let (v, input) ← value fuel input
    match expect comma input with
    | some input =>
      let (ms, rest) ← elements fuel input
      return (([], v) :: ms, rest)
    | none =>
      let rest ← expect closeBracket input
      return ([([], v)], rest)

end

/-- `read_json`. -/
def readJson (text : List UInt8) : Option PTree :=
  if IsUtf8 text then do
    let (tree, rest) ← value (text.length + 1) text
    if skipBlanks rest = [] then some tree else none
  else none

end Json
