import DocShell.Text.Numeral

/-!
# Document identifiers

An object id is a row of 24 hexadecimal digits.  It is read from digits of
either case and written with small ones; ids are ordered by the number they
denote.

`ObjectId.Source` hands out fresh ids: a fixed stem of 18 digits followed by a
counter of six.
-/

namespace DocShell

/-- Twenty-four hexadecimal digits. -/
structure ObjectId where
  digits : List (Fin 16)
  length_digits : digits.length = 24
  deriving DecidableEq, Repr

namespace ObjectId

/-- The small letter or figure for a hexadecimal digit. -/
def digitChar (d : Fin 16) : Char :=
  Nat.digitChar d.val

/-- The hexadecimal digit that a character stands for. -/
def digit? (c : Char) : Option (Fin 16) :=
  (Text.hexValue? c).bind fun n => if h : n < 16 then some ⟨n, h⟩ else none

/-- The id with the given digits, if there are 24 of them. -/
def ofDigits? (digits : List (Fin 16)) : Option ObjectId :=
  if h : digits.length = 24 then some ⟨digits, h⟩ else none

/-- The id that a text of 24 hexadecimal digits denotes. -/
def read? (text : List Char) : Option ObjectId :=
  (text.mapM digit?).bind ofDigits?

/-- The 24 digits as text. -/
def hex (id : ObjectId) : String :=
  String.ofList (id.digits.map digitChar)

/-- The number that the digits denote. -/
def toNat (id : ObjectId) : Nat :=
  id.digits.foldl (fun n d => n * 16 + d.val) 0

/-- The last `count` hexadecimal digits of a number. -/
def lastDigits (count n : Nat) : List (Fin 16) :=
  match count with
  | 0 => []
  | count + 1 => lastDigits count (n / 16) ++ [⟨n % 16, Nat.mod_lt n (by decide)⟩]

theorem length_lastDigits (count n : Nat) : (lastDigits count n).length = count := by
  induction count generalizing n with
  | zero => rfl
  | succ count ih => simp [lastDigits, ih]

/-- The id whose digits are the last 24 of a number. -/
def ofNat (n : Nat) : ObjectId :=
  ⟨lastDigits 24 n, length_lastDigits 24 n⟩

instance : Inhabited ObjectId := ⟨ofNat 0⟩

/-- What fresh ids are made of. -/
structure Source where
  /-- The first 18 digits, as a number. -/
  stem : Nat
  /-- The number of ids handed out so far. -/
  used : Nat := 0
  deriving DecidableEq, Repr, Inhabited

/-- The id that comes next from a source. -/
def Source.next (source : Source) : ObjectId :=
  ofNat (source.stem * Nat.pow 16 6 + source.used % Nat.pow 16 6)

/-- The source after one id has been taken. -/
def Source.advance (source : Source) : Source :=
  { source with used := source.used + 1 }

end ObjectId

end DocShell
