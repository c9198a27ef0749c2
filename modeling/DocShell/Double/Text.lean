import DocShell.Double.Shortest
import DocShell.Text.Pieces

/-!
# Doubles as text

The digits of a double are those of the shortest decimal that reads back.  How
they are laid out differs from place to place, and each place has its record:
`json` for JSON numbers, `plain` inside messages, `detailed` where a value is
shown with its type.

Reading accepts an optional sign, digits with an optional point among, before
or behind them, an optional exponent, and the words for infinity and not a
number in any case.  The number is rounded once.
-/

namespace DocShell.Double

/-- The decisions of one way to write doubles. -/
structure Layout where
  /-- Written without an exponent when the first digit has this weight. -/
  positional : Int → Bool
  /-- A number without fractional digits keeps a point and a zero. -/
  keepPoint : Bool
  /-- A positive exponent has a plus sign. -/
  plusSign : Bool
  /-- The words for not a number and for infinity. -/
  nanText : String
  infinityText : String

namespace Layout

/-- JSON numbers: plain from `1e-5` up to below `1e16`, always with a point. -/
def json : Layout :=
  { positional := fun e => -5 ≤ e && e ≤ 15, keepPoint := true, plusSign := true,
    nanText := "nan", infinityText := "inf" }

/-- Messages: never an exponent, and whole numbers without a point. -/
def plain : Layout :=
  { positional := fun _ => true, keepPoint := false, plusSign := false,
    nanText := "NaN", infinityText := "inf" }

/-- Values shown with their type: plain from `1e-4` up to below `1e16`, always with a
point, and without a plus sign. -/
def detailed : Layout :=
  { positional := fun e => -4 ≤ e && e ≤ 15, keepPoint := true, plusSign := false,
    nanText := "NaN", infinityText := "inf" }

/-- Digits without an exponent; the first one has the weight `10 ^ leading`. -/
def positionalText (layout : Layout) (digits : List Char) (leading : Int) : List Char :=
  let point := if layout.keepPoint then ['.', '0'] else []
  if leading < 0 then
    '0' :: '.' :: List.replicate (-leading - 1).toNat '0' ++ digits
  else
    let whole := leading.toNat + 1
    if digits.length ≤ whole then
      digits ++ List.replicate (whole - digits.length) '0' ++ point
    else
      digits.take whole ++ '.' :: digits.drop whole

/-- Digits with an exponent; the first one has the weight `10 ^ leading`. -/
def exponentText (layout : Layout) (digits : List Char) (leading : Int) : List Char :=
  let mantissa :=
    match digits with
    | [] => []
    | [d] => [d]
    | d :: more => d :: '.' :: more
  let sign := if leading < 0 then ['-'] else if layout.plusSign then ['+'] else []
  mantissa ++ 'e' :: sign ++ Nat.toDigits 10 leading.natAbs

/-- The text of a double. -/
def text (layout : Layout) (x : Double) : String :=
  if x.isNaN then
    layout.nanText
  else
    let sign := if x.isNegative then ['-'] else []
    if !x.isFinite then
      String.ofList (sign ++ layout.infinityText.toList)
    else if x.isZero then
      String.ofList (sign ++ '0' :: if layout.keepPoint then ['.', '0'] else [])
    else
      let (coefficient, exponent) := x.shortest
      let digits := Nat.toDigits 10 coefficient
      let leading := exponent + digits.length - 1
      String.ofList <| sign ++
        if layout.positional leading then layout.positionalText digits leading
        else layout.exponentText digits leading

end Layout

/-! ## Reading -/

/-- An optional sign, and whether it was a minus. -/
def takeSign : List Char → Bool × List Char
  | '-' :: rest => (true, rest)
  | '+' :: rest => (false, rest)
  | text => (false, text)

/-- The digits that a text starts with, and the rest. -/
def takeDigits (text : List Char) : List Char × List Char :=
  text.span Char.isDigit

/-- An exponent, or nothing at all. -/
def readExponent? : List Char → Option Int
  | [] => some 0
  | c :: rest =>
    if c == 'e' || c == 'E' then
      let (negative, rest) := takeSign rest
      match takeDigits rest with
      | ([], _) => none
      | (digits, []) =>
        let n := Nat.ofDigitChars 10 digits 0
        some (if negative then -(n : Int) else n)
      | (_, _ :: _) => none
    else
      none

/-- Digits, point, digits, exponent. -/
def readUnsigned? (negative : Bool) (text : List Char) : Option Double :=
  let (whole, rest) := takeDigits text
  let (fraction, rest) :=
    match rest with
    | '.' :: rest => takeDigits rest
    | _ => ([], rest)
  if whole.isEmpty && fraction.isEmpty then
    none
  else
    (readExponent? rest).map fun exponent =>
      ofDecimal negative (Nat.ofDigitChars 10 (whole ++ fraction) 0)
        (exponent - fraction.length)

/-- The double that a text denotes. -/
def read? (text : List Char) : Option Double :=
  let (negative, rest) := takeSign text
  let word := Text.lowercase rest
  if word == "inf".toList || word == "infinity".toList then
    some (infinity negative)
  else if word == "nan".toList then
    some (nan negative)
  else
    readUnsigned? negative rest

end DocShell.Double
