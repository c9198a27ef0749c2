/-!
# Blank characters

Text is read as a list of characters.  A character is blank when it has the
Unicode property White_Space; trimming goes by that one test.
-/

namespace DocShell.Text

/-- The characters with the Unicode property White_Space. -/
def isBlank (c : Char) : Bool :=
  let n := c.toNat
  (0x09 ≤ n && n ≤ 0x0D) || n == 0x20 || n == 0x85 || n == 0xA0 || n == 0x1680 ||
    (0x2000 ≤ n && n ≤ 0x200A) || n == 0x2028 || n == 0x2029 || n == 0x202F ||
    n == 0x205F || n == 0x3000

/-- The text without its leading blanks. -/
def trimStart (text : List Char) : List Char :=
  text.dropWhile isBlank

/-- The text without the run of characters at its end that `drop` accepts. -/
def trimEndWhile (drop : Char → Bool) : List Char → List Char
  | [] => []
  | c :: rest =>
    match trimEndWhile drop rest with
    | [] => if drop c then [] else [c]
    | kept => c :: kept

/-- The text without its trailing blanks. -/
def trimEnd (text : List Char) : List Char :=
  trimEndWhile isBlank text

/-- The text without the blanks at either end. -/
def trim (text : List Char) : List Char :=
  trimEnd (trimStart text)

theorem trimStart_length_le (text : List Char) : (trimStart text).length ≤ text.length :=
  (List.dropWhile_sublist isBlank).length_le

theorem trimStart_append {lead : List Char} (hlead : ∀ c ∈ lead, isBlank c = true)
    (text : List Char) : trimStart (lead ++ text) = trimStart text :=
  List.dropWhile_append_of_pos hlead

theorem trimStart_cons {c : Char} (hc : isBlank c = false) (rest : List Char) :
    trimStart (c :: rest) = c :: rest :=
  List.dropWhile_cons_of_neg (by simp [hc])

theorem trimEndWhile_cons {drop : Char → Bool} {c : Char} (hc : drop c = false)
    (rest : List Char) : trimEndWhile drop (c :: rest) = c :: trimEndWhile drop rest := by
  rw [trimEndWhile]
  cases trimEndWhile drop rest with
  | nil => simp [hc]
  | cons d kept => rfl

theorem trimEndWhile_of_all {drop : Char → Bool} {text : List Char}
    (hall : ∀ c ∈ text, drop c = true) : trimEndWhile drop text = [] := by
  induction text with
  | nil => rfl
  | cons c text ih =>
      have hrest : trimEndWhile drop text = [] := ih fun d hd => hall d (List.mem_cons_of_mem c hd)
      rw [trimEndWhile, hrest]
      exact if_pos (hall c List.mem_cons_self)

theorem trimEndWhile_append {drop : Char → Bool} {tail : List Char}
    (htail : ∀ c ∈ tail, drop c = true) (text : List Char) :
    trimEndWhile drop (text ++ tail) = trimEndWhile drop text := by
  induction text with
  | nil => exact trimEndWhile_of_all htail
  | cons c text ih => rw [List.cons_append, trimEndWhile, trimEndWhile, ih]

theorem trimEndWhile_of_last {drop : Char → Bool} {text : List Char}
    (hlast : ∀ c ∈ text.getLast?, drop c = false) : trimEndWhile drop text = text := by
  induction text with
  | nil => rfl
  | cons c text ih =>
      cases text with
      | nil => simp [trimEndWhile, hlast c rfl]
      | cons d text =>
          have hrest : trimEndWhile drop (d :: text) = d :: text := ih hlast
          rw [trimEndWhile, hrest]

/-- Blanks around a text whose own ends are not blank are what trimming takes away. -/
theorem trim_append {lead text trail : List Char} (hlead : ∀ c ∈ lead, isBlank c = true)
    (htrail : ∀ c ∈ trail, isBlank c = true)
    (hhead : ∃ c more, text = c :: more ∧ isBlank c = false)
    (hlast : ∀ c ∈ text.getLast?, isBlank c = false) :
    trim (lead ++ (text ++ trail)) = text := by
  obtain ⟨c, more, rfl, hc⟩ := hhead
  have hstart : trimStart (lead ++ (c :: more ++ trail)) = c :: more ++ trail := by
    rw [trimStart_append hlead]
    exact trimStart_cons hc _
  rw [trim, hstart, trimEnd, trimEndWhile_append htrail, trimEndWhile_of_last hlast]

end DocShell.Text
