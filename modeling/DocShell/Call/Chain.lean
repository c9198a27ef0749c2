import DocShell.Call.Argument

/-!
# Chains of calls

A chain is a row of calls `method(arguments)` with points between them and
blanks wherever tokens meet.  `Chain.read` reads all of a text as a chain.
-/

namespace DocShell

/-- One call of a method. -/
structure Call where
  method : String
  arguments : List Value
  deriving Repr, Inhabited

namespace Chain

/-- The name that a text starts with, and the rest. -/
def takeName : List Char → List Char × List Char
  | c :: rest =>
    if Literal.isWordStart c then
      (c :: rest.takeWhile Literal.isWordChar, rest.dropWhile Literal.isWordChar)
    else
      ([], c :: rest)
  | [] => ([], [])

/-- The call that a text starts with, and what stands behind it. -/
def readCall (text : List Char) : Except ParseFailure (Call × List Char) :=
  let (name, afterName) := takeName text
  let bracket := Text.trimStart afterName
  if name.isEmpty || bracket.head? != some '(' then
    .error (.expectedCall (String.ofList text))
  else
    match Text.splitParen bracket with
    | none => .error (.unbalanced (String.ofList text))
    | some (inside, behind) =>
      (Argument.readList inside).map fun arguments =>
        ({ method := String.ofList name, arguments }, behind)

theorem takeName_length (text : List Char) : (takeName text).2.length ≤ text.length := by
  cases text with
  | nil => simp [takeName]
  | cons c rest =>
      by_cases h : Literal.isWordStart c
      · have := (List.dropWhile_sublist Literal.isWordChar (l := rest)).length_le
        simp only [takeName, h, if_true, List.length_cons]
        omega
      · simp [takeName, h]

theorem readCall_length {text behind : List Char} {call : Call}
    (h : readCall text = .ok (call, behind)) : behind.length < text.length := by
  unfold readCall at h
  simp only at h
  split at h
  · simp at h
  · split at h
    · simp at h
    · next inside after hsplit =>
      cases hread : Argument.readList inside with
      | error failure => simp [hread, Except.map] at h
      | ok arguments =>
          simp only [hread, Except.map, Except.ok.injEq, Prod.mk.injEq] at h
          obtain ⟨-, rfl⟩ := h
          have hparen := Text.splitParen_length hsplit
          have htrim := Text.trimStart_length_le (takeName text).2
          have hname := takeName_length text
          omega

/-- The calls of a chain whose leading blanks are gone. -/
def readCalls (text : List Char) : Except ParseFailure (List Call) :=
  match _hcall : readCall text with
  | .error failure => .error failure
  | .ok (call, behind) =>
    match _hbehind : Text.trimStart behind with
    | [] => .ok [call]
    | '.' :: next =>
      (readCalls (Text.trimStart next)).map (call :: ·)
    | after =>
      .error (.malformed s!"unexpected `{String.ofList after}` after `{call.method}(...)`")
termination_by text.length
decreasing_by
  have hlt := readCall_length _hcall
  have hle := Text.trimStart_length_le behind
  have hnext := Text.trimStart_length_le next
  rw [_hbehind, List.length_cons] at hle
  omega

theorem readCalls_eq (text : List Char) :
    readCalls text =
      match readCall text with
      | .error failure => .error failure
      | .ok (call, behind) =>
        match Text.trimStart behind with
        | [] => .ok [call]
        | '.' :: next => (readCalls (Text.trimStart next)).map (call :: ·)
        | after =>
          .error (.malformed
            s!"unexpected `{String.ofList after}` after `{call.method}(...)`") := by
  rw [readCalls]
  split
  · next hcall => rw [hcall]
  · next hcall =>
      rw [hcall]
      simp only
      split
      · next hbehind => simp only [hbehind]
      · next hbehind => simp only [hbehind]
      · next hlast hpoint =>
          split
          · next hbehind => exact absurd hbehind hlast
          · next hbehind => exact absurd hbehind (hpoint _)
          · rfl

theorem readCalls_of_last {text behind : List Char} {call : Call}
    (hcall : readCall text = .ok (call, behind)) (hbehind : Text.trimStart behind = []) :
    readCalls text = .ok [call] := by
  simp only [readCalls_eq, hcall, hbehind]

theorem readCalls_of_failure {text : List Char} {failure : ParseFailure}
    (hcall : readCall text = .error failure) : readCalls text = .error failure := by
  rw [readCalls_eq, hcall]

theorem readCalls_of_point {text behind next : List Char} {call : Call}
    (hcall : readCall text = .ok (call, behind)) (hbehind : Text.trimStart behind = '.' :: next) :
    readCalls text = (readCalls (Text.trimStart next)).map (call :: ·) := by
  rw [readCalls_eq, hcall]
  simp only [hbehind]

/-- The calls of a chain. -/
def read (text : List Char) : Except ParseFailure (List Call) :=
  readCalls (Text.trim text)

end Chain

end DocShell
