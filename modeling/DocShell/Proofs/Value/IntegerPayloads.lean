import DocShell.Proofs.Double.Integers
import DocShell.Proofs.Literal.Grammar
import DocShell.Proofs.Text.Trimming
import DocShell.Value.Extended

/-!
# Integers in wrappers

The wrappers of sized integers, and that of an instant around a `$numberLong`, give the integer
that their payload denotes, or they are refused.  A count of milliseconds that stands under
`$date` by itself is never refused: it is exact if it is an integer of 64 bits, and otherwise
becomes another one (`integers_exact`, `fraction_of_a_millisecond`).

## Strategy

What a payload denotes is said without the readers: `Json.Denotes` is the value of a number, or
that of the decimal text between the blanks of a string (`Text.IsDecimal`), and there is one such
integer at most (`denotes_unique`).

* Reading a decimal text is finding the integer that it denotes, if it has 64 bits
  (`readInt64?_eq_some_iff`).
* So a payload is read as exactly what it denotes, and a number with a point or an exponent is
  no payload even if it denotes an integer (`integerPayload_eq_ok_iff`).
* Truncating a double that is an integer of 64 bits changes nothing (`truncate_of_integer`).
-/

namespace DocShell

/-! ## Decimal texts -/

namespace Text

variable {text digits : List Char} {n : Int}

/-- The text is written with digits, and with at most one sign in front of them. -/
inductive IsDecimal : List Char → Int → Prop
  | plain {digits : List Char} (hsome : digits ≠ []) (hdigits : ∀ c ∈ digits, c.isDigit = true) :
      IsDecimal digits (natOfDigits digits)
  | plus {digits : List Char} (hsome : digits ≠ []) (hdigits : ∀ c ∈ digits, c.isDigit = true) :
      IsDecimal ('+' :: digits) (natOfDigits digits)
  | minus {digits : List Char} (hsome : digits ≠ []) (hdigits : ∀ c ∈ digits, c.isDigit = true) :
      IsDecimal ('-' :: digits) (-(natOfDigits digits : Int))

theorem readNat?_eq_some_iff {k : Nat} :
    readNat? text = some k ↔
      (text ≠ [] ∧ ∀ c ∈ text, c.isDigit = true) ∧ natOfDigits text = k := by
  have hgood : (text.isEmpty || !text.all Char.isDigit) = false ↔
      text ≠ [] ∧ ∀ c ∈ text, c.isDigit = true := by simp
  unfold readNat?
  split
  · next hbad => simp [← hgood, hbad]
  · next hnot =>
      have hall := hgood.mp ((Bool.not_eq_true _).mp hnot)
      rw [Option.some.injEq]
      exact ⟨fun hvalue => ⟨hall, hvalue⟩, And.right⟩

theorem readInt?_eq_some_iff : readInt? text = some n ↔ IsDecimal text n := by
  constructor
  · intro hread
    unfold readInt? at hread
    split at hread
    · simp only [Option.map_eq_some_iff, Option.bind_eq_bind, Option.bind_eq_some_iff] at hread
      obtain ⟨_, ⟨k, hk, ⟨⟩⟩, rfl⟩ := hread
      obtain ⟨⟨hsome, hdigits⟩, rfl⟩ := readNat?_eq_some_iff.mp hk
      exact .minus hsome hdigits
    all_goals
      obtain ⟨k, hk, rfl⟩ := Option.map_eq_some_iff.mp hread
      obtain ⟨⟨hsome, hdigits⟩, rfl⟩ := readNat?_eq_some_iff.mp hk
    · exact .plus hsome hdigits
    · exact .plain hsome hdigits
  · rintro (⟨hsome, hdigits⟩ | ⟨hsome, hdigits⟩ | ⟨hsome, hdigits⟩)
    · have hread := readNat?_eq_some_iff.mpr ⟨⟨hsome, hdigits⟩, rfl⟩
      unfold readInt?
      split
      · exact absurd (hdigits '-' List.mem_cons_self) (by decide)
      · exact absurd (hdigits '+' List.mem_cons_self) (by decide)
      · rw [hread]
        rfl
    all_goals
      rw [readInt?, readNat?_eq_some_iff.mpr ⟨⟨hsome, hdigits⟩, rfl⟩]
      rfl

theorem readInt64?_eq_some_iff :
    readInt64? text = some n ↔ IsDecimal text n ∧ fitsInt64 n = true := by
  rw [readInt64?, Option.filter_eq_some_iff, readInt?_eq_some_iff]

/-- Neither digits nor signs are blank, so blanks around a decimal text are what trimming
takes away. -/
theorem IsDecimal.trim_eq (hdecimal : IsDecimal digits n) (hpadded : Padded digits text) :
    trim text = digits := by
  have hblank : ∀ c ∈ digits, isBlank c = false := by
    have hdigit {c : Char} (hc : c.isDigit = true) : isBlank c = false :=
      Literal.isBlank_of_isWordChar (Literal.isWordChar_of_isDigit hc)
    cases hdecimal with
    | plain _ hdigits => exact fun c hc => hdigit (hdigits c hc)
    | plus _ hdigits | minus _ hdigits =>
        intro c hc
        rcases List.mem_cons.mp hc with rfl | hc
        · decide
        · exact hdigit (hdigits c hc)
  have hhead : ∃ c more, digits = c :: more ∧ isBlank c = false := by
    cases hdecimal with
    | plain hsome _ =>
        obtain ⟨c, more, rfl⟩ := List.exists_cons_of_ne_nil hsome
        exact ⟨c, more, rfl, hblank c List.mem_cons_self⟩
    | plus _ _ | minus _ _ => exact ⟨_, _, rfl, by decide⟩
  obtain ⟨lead, trail, hlead, htrail, rfl⟩ := hpadded
  exact trim_append hlead htrail hhead fun c hc => hblank c (List.mem_of_getLast? hc)

end Text

/-! ## Payloads -/

namespace Json

/-- The payload is a number with a point or an exponent, or one too large for an integer. -/
def IsDouble (payload : Json) : Prop :=
  ∃ x, payload = .number (.float x)

/-- The integer that a payload denotes: the value of a number, or that of a decimal text with
blanks around it. -/
inductive Denotes : Json → Int → Prop
  | integer (n : Int) : Denotes (.number (.int n)) n
  | double {x : Double} {n : Int} (hfinite : x.isFinite = true)
      (hvalue : x.scaled = n * (Nat.pow 2 1074 : Nat)) : Denotes (.number (.float x)) n
  | text {s : String} {digits : List Char} {n : Int} (hdecimal : Text.IsDecimal digits n)
      (hpadded : Text.Padded digits s.toList) : Denotes (.string s) n

end Json

namespace Value

variable {payload : Json} {n : Int}

/-- A string denotes an integer if what is between its blanks does. -/
theorem denotes_string_iff {s : String} :
    (Json.string s).Denotes n ↔ Text.IsDecimal (Text.trim s.toList) n := by
  constructor
  · intro hdenotes
    cases hdenotes with
    | text hdecimal hpadded => rwa [hdecimal.trim_eq hpadded]
  · exact fun hdecimal => .text hdecimal (Text.padded_trim _)

theorem toInt64?_eq_some_iff {m : Json.Number} {i : Int64} :
    m.toInt64? = some i ↔ m = .int i.toInt := by
  cases m with
  | float x => simp [Json.Number.toInt64?]
  | int k =>
      simp only [Json.Number.toInt64?, Json.Number.int.injEq]
      constructor
      · intro hread
        split at hread
        · next hfits =>
            cases hread
            exact (Text.toInt_ofInt64 hfits).symm
        · cases hread
      · rintro rfl
        rw [if_pos (Text.fitsInt64_toInt i), Int64.ofInt_toInt]

/-- A payload is read as exactly the integer that it denotes, unless it is a double or the
integer needs more than 64 bits. -/
theorem integerPayload_eq_ok_iff (key : String) {i : Int64} :
    integerPayload key payload = .ok i ↔ ¬ payload.IsDouble ∧ payload.Denotes i.toInt := by
  cases payload with
  | string s =>
      have hplain : ¬ (Json.string s).IsDouble := by rintro ⟨_, ⟨⟩⟩
      rw [denotes_string_iff, integerPayload]
      simp only [hplain, not_false_eq_true, true_and]
      constructor
      · intro hread
        split at hread
        · next k hk =>
            obtain ⟨hdecimal, hfits⟩ := Text.readInt64?_eq_some_iff.mp hk
            cases hread
            rwa [Text.toInt_ofInt64 hfits]
        · cases hread
      · intro hdecimal
        rw [Text.readInt64?_eq_some_iff.mpr ⟨hdecimal, Text.fitsInt64_toInt i⟩]
        simp only [Int64.ofInt_toInt]
  | number m =>
      rw [integerPayload]
      have hread : (∃ j, m.toInt64? = some j ∧ j = i) ↔
          ¬ (Json.number m).IsDouble ∧ (Json.number m).Denotes i.toInt := by
        simp only [exists_eq_right, toInt64?_eq_some_iff]
        constructor
        · rintro rfl
          exact ⟨by rintro ⟨_, ⟨⟩⟩, .integer _⟩
        · rintro ⟨hplain, hdenotes⟩
          cases hdenotes with
          | integer _ => rfl
          | double _ _ => exact absurd ⟨_, rfl⟩ hplain
      rw [← hread]
      cases m.toInt64? <;> simp [badPayload]
  | null | bool _ | array _ | object _ =>
      simp only [integerPayload, badPayload, reduceCtorEq, false_iff, not_and]
      exact fun _ hdenotes => nomatch hdenotes

/-- An integer of 32 bits is read in two steps, and nothing is lost between them. -/
theorem smallIntegerPayload_eq_ok_iff {i : Int32} :
    smallIntegerPayload payload = .ok i ↔ ¬ payload.IsDouble ∧ payload.Denotes i.toInt := by
  have hfits : Text.fitsInt64 i.toInt = true := by
    have hshort := Text.fitsInt32_iff.mp (Text.fitsInt32_toInt i)
    rw [Text.fitsInt64_iff]
    omega
  have hread : integerPayload "$numberInt" payload = .ok (Int64.ofInt i.toInt) ↔
      ¬ payload.IsDouble ∧ payload.Denotes i.toInt := by
    rw [integerPayload_eq_ok_iff "$numberInt", Text.toInt_ofInt64 hfits]
  rw [← hread, smallIntegerPayload]
  cases integerPayload "$numberInt" payload with
  | error failure => simp [bind, Except.bind]
  | ok j =>
      simp only [bind, Except.bind, Except.ok.injEq]
      constructor
      · intro hsmall
        split at hsmall
        · next hshort =>
            cases hsmall
            rw [Text.toInt_ofInt32 hshort, Int64.ofInt_toInt]
        · cases hsmall
      · rintro rfl
        rw [Text.toInt_ofInt64 hfits, if_pos (Text.fitsInt32_toInt i), Int32.ofInt_toInt]
        rfl

theorem scaled_of_denotes {x : Double} (hdenotes : (Json.number (.float x)).Denotes n) :
    x.scaled = n * (Nat.pow 2 1074 : Nat) := by
  cases hdenotes with
  | double _ hvalue => exact hvalue

theorem two_pow_ne_zero (k : Nat) : ((Nat.pow 2 k : Nat) : Int) ≠ 0 :=
  Int.natCast_ne_zero.mpr (Nat.ne_of_gt (Double.two_pow_pos k))

/-- A payload denotes one integer at most. -/
theorem denotes_unique {m : Int} (hn : payload.Denotes n) (hm : payload.Denotes m) : n = m := by
  cases hn with
  | integer n =>
      cases hm
      rfl
  | double _ hvalue =>
      exact Int.eq_of_mul_eq_mul_right (two_pow_ne_zero _)
        (hvalue.symm.trans (scaled_of_denotes hm))
  | text hdecimal hpadded =>
      have hn' := denotes_string_iff.mp (.text hdecimal hpadded)
      have hm' := denotes_string_iff.mp hm
      rw [← Text.readInt?_eq_some_iff] at hn' hm'
      exact Option.some.inj (hn'.symm.trans hm')

/-! ## Truncation -/

theorem clampInt64_of_fitsInt64 (hfits : Text.fitsInt64 n = true) :
    (Double.clampInt64 n).toInt = n := by
  have hbounds := Text.fitsInt64_iff.mp hfits
  rw [Double.clampInt64, if_neg (by omega), if_neg (by omega), Text.toInt_ofInt64 hfits]

/-- Truncating an integer only brings it between the bounds. -/
theorem truncate_of_integer {x : Double} (hfinite : x.isFinite = true)
    (hvalue : x.scaled = n * (Nat.pow 2 1074 : Nat)) : x.truncate = Double.clampInt64 n := by
  have hnumber : x.isNaN = false := by
    simp only [Double.isFinite, bne_iff_ne] at hfinite
    simp [Double.isNaN, hfinite]
  rw [Double.truncate, hnumber, if_neg Bool.false_ne_true, if_pos hfinite, hvalue]
  -- The power is not to be computed.
  generalize 1074 = k
  rw [Int.mul_tdiv_cancel n (two_pow_ne_zero k)]

/-! ## Wrappers of integers -/

/-- The values that hold an integer. -/
inductive IntegerKind where
  | int32
  | int64
  | instant

/-- The value is of the kind and holds the integer. -/
def IntegerKind.Holds (kind : IntegerKind) (n : Int) (v : Value) : Prop :=
  match kind with
  | .int32 => ∃ i : Int32, i.toInt = n ∧ v = .int32 i
  | .int64 => ∃ i : Int64, i.toInt = n ∧ v = .int64 i
  | .instant => ∃ i : Int64, i.toInt = n ∧ v = .dateTime i

/-- The object wraps an integer of the kind, and this is the payload that counts. -/
inductive WrapsInteger (members : Fields Json) : IntegerKind → Json → Prop
  | int32 {payload : Json} (hdate : members.get? "$date" = none)
      (hid : members.get? "$oid" = none) (hpayload : members.get? "$numberInt" = some payload) :
      WrapsInteger members .int32 payload
  | int64 {payload : Json} (hdate : members.get? "$date" = none)
      (hid : members.get? "$oid" = none) (hint : members.get? "$numberInt" = none)
      (hpayload : members.get? "$numberLong" = some payload) :
      WrapsInteger members .int64 payload
  | instant {inner : Fields Json} {payload : Json}
      (hdate : members.get? "$date" = some (.object inner))
      (hpayload : inner.get? "$numberLong" = some payload) :
      WrapsInteger members .instant payload

variable {members : Fields Json} {kind : IntegerKind} {v : Value}

/-- A wrapper whose payload is read as the integer that it denotes holds that integer. -/
theorem ofExtended_of_exact {ι : Type} {toInt : ι → Int} {read : Except ParseFailure ι}
    {wrap : ι → Value} (hwrapper : ofWrapper members = read.map fun i => some (wrap i))
    (hread : ∀ i, read = .ok i ↔ ¬ payload.IsDouble ∧ payload.Denotes (toInt i)) :
    ofExtended (.object members) = .ok v ↔
      ¬ payload.IsDouble ∧ ∃ n, payload.Denotes n ∧ ∃ i, toInt i = n ∧ v = wrap i := by
  have hvalue : ofExtended (.object members) = .ok v ↔ ∃ i, read = .ok i ∧ v = wrap i := by
    rw [ofExtended, hwrapper]
    cases read <;> simp [Except.map, eq_comm]
  rw [hvalue]
  constructor
  · rintro ⟨i, hi, rfl⟩
    obtain ⟨hplain, hdenotes⟩ := (hread i).mp hi
    exact ⟨hplain, _, hdenotes, i, rfl, rfl⟩
  · rintro ⟨hplain, _, hdenotes, i, rfl, rfl⟩
    exact ⟨i, (hread i).mpr ⟨hplain, hdenotes⟩, rfl⟩

theorem ofExtended_of_wrapsInteger (hwraps : WrapsInteger members kind payload) :
    ofExtended (.object members) = .ok v ↔
      ¬ payload.IsDouble ∧ ∃ n, payload.Denotes n ∧ kind.Holds n v := by
  cases hwraps with
  | int32 hdate hid hpayload =>
      exact ofExtended_of_exact (by simp only [ofWrapper, hdate, hid, hpayload])
        fun _ => smallIntegerPayload_eq_ok_iff
  | int64 hdate hid hint hpayload =>
      exact ofExtended_of_exact (by simp only [ofWrapper, hdate, hid, hint, hpayload])
        fun _ => integerPayload_eq_ok_iff "$numberLong"
  | instant hdate hpayload =>
      exact ofExtended_of_exact (by simp only [ofWrapper, hdate, instantPayload, hpayload])
        fun _ => integerPayload_eq_ok_iff "$numberLong"

/-- A number by itself under `$date` always gives an instant. -/
theorem ofExtended_numberDate {m : Json.Number}
    (hdate : members.get? "$date" = some (.number m)) :
    ofExtended (.object members) = .ok (.dateTime (m.toInt64?.getD m.toDouble.truncate)) := by
  rw [ofExtended, ofWrapper]
  simp only [hdate, instantPayload, Except.map]

/-- The count of milliseconds in a number is kept exactly if it is an integer of 64 bits. -/
theorem toInt_millis_eq_iff {m : Json.Number} (hdenotes : (Json.number m).Denotes n) :
    (m.toInt64?.getD m.toDouble.truncate).toInt = n ↔ Text.fitsInt64 n = true := by
  constructor
  · rintro rfl
    exact Text.fitsInt64_toInt _
  · intro hfits
    cases hdenotes with
    | integer n =>
        rw [Json.Number.toInt64?, if_pos hfits, Option.getD_some, Text.toInt_ofInt64 hfits]
    | double hfinite hvalue =>
        rw [Json.Number.toInt64?, Option.getD_none, Json.Number.toDouble,
          truncate_of_integer hfinite hvalue, clampInt64_of_fitsInt64 hfits]

/-- **Integers in wrappers are exact or refused.**  A `$numberInt`, a `$numberLong` or a `$date`
with a `$numberLong` is read exactly if its payload is no double and denotes an integer that the
kind of value can hold, and then the value holds this integer.  A number by itself under `$date`
is always read: what it denotes is kept exactly if it is an integer of 64 bits. -/
theorem integers_exact (members : Fields Json) :
    (∀ kind payload v, WrapsInteger members kind payload →
      (ofExtended (.object members) = .ok v ↔
        ¬ payload.IsDouble ∧ ∃ n, payload.Denotes n ∧ kind.Holds n v)) ∧
    ∀ m, members.get? "$date" = some (.number m) →
      ∃ t : Int64, ofExtended (.object members) = .ok (.dateTime t) ∧
        ∀ n, (Json.number m).Denotes n → (t.toInt = n ↔ Text.fitsInt64 n = true) :=
  ⟨fun _ _ _ hwraps => ofExtended_of_wrapsInteger hwraps,
    fun _ hdate => ⟨_, ofExtended_numberDate hdate, fun _ hdenotes => toInt_millis_eq_iff hdenotes⟩⟩

/-- The least integer of 64 bits is read from between blanks, one more than the greatest of 32
bits is refused, and a count of milliseconds may be written with an exponent. -/
theorem integers_exact_at_bounds :
    ofExtended (.object [("$numberLong", .string " -9223372036854775808 ")]) =
        .ok (.int64 Int64.minValue) ∧
      (∀ v, ofExtended (.object [("$numberInt", .number (.int 2147483648))]) ≠ .ok v) ∧
      ofExtended (.object [("$date", .number (.float (Double.ofDecimal false 1 12)))]) =
        .ok (.dateTime 1000000000000) := by
  refine ⟨?_, fun v hread => ?_, ?_⟩
  · refine ((integers_exact _).1 .int64 _ _ (.int64 rfl rfl rfl rfl)).mpr
      ⟨by rintro ⟨_, ⟨⟩⟩, Int64.minValue.toInt, ?_, Int64.minValue, rfl, rfl⟩
    exact .text (@Text.IsDecimal.minus "9223372036854775808".toList (by decide)
      (List.all_eq_true.mp rfl)) ⟨[' '], [' '], by decide, by decide, by decide⟩
  · obtain ⟨-, n, hdenotes, i, hi, -⟩ :=
      ((integers_exact _).1 .int32 _ v (.int32 rfl rfl rfl)).mp hread
    have hhigh := i.toInt_lt
    cases hdenotes
    omega
  · obtain ⟨t, hread, hexact⟩ :=
      (integers_exact [("$date", .number (.float (Double.ofDecimal false 1 12)))]).2 _ rfl
    have hcount : t.toInt = 1000000000000 :=
      (hexact 1000000000000 (.double (by decide +kernel) (by decide +kernel))).mpr rfl
    have ht : t = 1000000000000 := Int64.toInt_inj.mp (hcount.trans (by decide))
    rw [hread, ht]

/-- One millisecond and a half are cut down to one, and the first count with more than 64 bits
becomes the last one with 64 bits. -/
theorem fraction_of_a_millisecond :
    (ofExtended (.object [("$date", .number (.float (Double.ofDecimal false 15 (-1))))]) =
        .ok (.dateTime 1) ∧
      ∀ n, ¬ (Json.number (.float (Double.ofDecimal false 15 (-1)))).Denotes n) ∧
    ofExtended (.object [("$date", .number (.int 9223372036854775808))]) =
        .ok (.dateTime 9223372036854775807) ∧
      ¬ (Json.number (.int 9223372036854775808)).Denotes 9223372036854775807 := by
  have htruncate : (Double.ofDecimal false 15 (-1)).truncate = 1 := by decide +kernel
  have hclamp : (Double.ofInt 9223372036854775808).truncate = 9223372036854775807 := by
    decide +kernel
  have hvalue : 2 * (Double.ofDecimal false 15 (-1)).scaled = 3 * (Nat.pow 2 1074 : Nat) := by
    decide +kernel
  -- An odd number of halves is no integer, whatever the scale.
  have hodd {k : Nat} {s n : Int} (htwice : 2 * s = 3 * (Nat.pow 2 k : Nat)) :
      s ≠ n * (Nat.pow 2 k : Nat) := by
    rintro rfl
    rw [← Int.mul_assoc] at htwice
    have hthree := Int.eq_of_mul_eq_mul_right (two_pow_ne_zero k) htwice
    omega
  refine ⟨⟨?_, fun n hdenotes => ?_⟩, ?_, fun hdenotes => by cases hdenotes⟩
  · rw [ofExtended_numberDate rfl, Json.Number.toInt64?, Option.getD_none, Json.Number.toDouble,
      htruncate]
  · exact hodd hvalue (scaled_of_denotes hdenotes)
  · rw [ofExtended_numberDate rfl, Json.Number.toInt64?, if_neg (by decide), Option.getD_none,
      Json.Number.toDouble, hclamp]

end Value

end DocShell
