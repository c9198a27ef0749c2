import DocShell.Call.Chain
import DocShell.Proofs.Call.Arguments
import DocShell.Proofs.Literal.Normalization

/-!
# The grammar of chains

A text is read as a chain exactly when it is one: calls with points between them, each a
name with a list of arguments in parentheses, and blanks wherever these parts meet.

## Strategy

* The reader takes one call off the text and goes on behind the point, as a written chain is
  a call, or a call, a point and a written chain.
* Of a call the parenthesis has to be found that closes it.  A list of well-formed arguments
  is closed, so that the reader stops right behind it (`Text.splitParen_of_closed`), and
  `Argument.readList_of_listed` says what it makes of the list.
* In the other direction the parts that the reader took are put together again, and blanks
  at either end belong to the first and the last call (`Written.of_padded`).
-/

namespace DocShell

open Text (AllBlank Padded)

/-- A name of a method: a word that does not start with a digit. -/
def Chain.IsIdentifier (name : List Char) : Prop :=
  ∃ c more, name = c :: more ∧ Literal.isWordStart c = true ∧
    ∀ d ∈ more, Literal.isWordChar d = true

/-- A call before its arguments are read. -/
structure Call.Form where
  name : List Char
  arguments : List (List Char)
  isIdentifier : Chain.IsIdentifier name
  wellFormed : ∀ argument ∈ arguments, Argument.IsWellFormed argument

namespace Call.Form

variable {form : Form} {text core : List Char}

/-- The call with its arguments read in order, or the first failure among them. -/
def read (form : Form) : Except ParseFailure Call :=
  (form.arguments.mapM Argument.read).map fun arguments =>
    { method := String.ofList form.name, arguments }

/-- The text is this call, with blanks around its parts. -/
def Written (form : Form) (text : List Char) : Prop :=
  ∃ lead gap inside trail, AllBlank lead ∧ AllBlank gap ∧ AllBlank trail ∧
    Argument.Listed form.arguments inside ∧
    text = lead ++ (form.name ++ (gap ++ '(' :: (inside ++ ')' :: trail)))

theorem Written.of_padded (hform : form.Written core) (hpadded : Padded core text) :
    form.Written text := by
  obtain ⟨lead, trail, hlead, htrail, rfl⟩ := hpadded
  obtain ⟨inner, gap, inside, behind, hinner, hgap, hbehind, harguments, rfl⟩ := hform
  exact ⟨lead ++ inner, gap, inside, behind ++ trail, hlead.append hinner, hgap,
    hbehind.append htrail, harguments, by simp⟩

theorem Written.trimEnd (hform : form.Written text) : form.Written (Text.trimEnd text) := by
  obtain ⟨lead, gap, inside, trail, hlead, hgap, htrail, harguments, rfl⟩ := hform
  refine ⟨lead, gap, inside, [], hlead, hgap, Text.allBlank_nil, harguments, ?_⟩
  have hfront : lead ++ (form.name ++ (gap ++ '(' :: (inside ++ ')' :: trail))) =
      lead ++ (form.name ++ (gap ++ '(' :: inside)) ++ ')' :: trail := by simp
  rw [hfront, Text.trimEnd, Text.trimEndWhile_append_cons (by decide),
    Text.trimEndWhile_of_all htrail]
  simp

end Call.Form

namespace Chain

open Call (Form)

variable {forms : List Form} {text core : List Char}

/-- The text is these calls with points between them. -/
inductive Written : List Form → List Char → Prop where
  | last {form : Form} {text : List Char} (hform : form.Written text) : Written [form] text
  | more {form : Form} {forms : List Form} {text rest : List Char} (hform : form.Written text)
      (hforms : Written forms rest) : Written (form :: forms) (text ++ '.' :: rest)

/-! ## One call -/

theorem takeName_of_isIdentifier {name rest : List Char} (hname : IsIdentifier name)
    (hrest : ∀ c ∈ rest.head?, Literal.isWordChar c = false) :
    takeName (name ++ rest) = (name, rest) := by
  obtain ⟨c, more, rfl, hc, hmore⟩ := hname
  obtain ⟨htake, hdrop⟩ := Literal.takeWhile_word hmore hrest
  rw [List.cons_append, takeName, if_pos hc, htake, hdrop]

theorem takeName_append (text : List Char) : (takeName text).1 ++ (takeName text).2 = text := by
  cases text with
  | nil => rfl
  | cons c rest =>
      rw [takeName]
      split
      · rw [List.cons_append, List.takeWhile_append_dropWhile]
      · rfl

theorem isIdentifier_takeName (hne : (takeName text).1 ≠ []) :
    IsIdentifier (takeName text).1 := by
  cases text with
  | nil => exact absurd rfl hne
  | cons c rest =>
      rw [takeName] at hne ⊢
      split at hne
      · next hc =>
          rw [if_pos hc]
          exact ⟨c, _, rfl, hc, List.all_eq_true.mp List.all_takeWhile⟩
      · exact absurd rfl hne

theorem isBlank_of_isIdentifier {c : Char} {more : List Char} (hname : IsIdentifier (c :: more)) :
    Text.isBlank c = false := by
  obtain ⟨d, rest, heq, hd, -⟩ := hname
  rw [(List.cons.inj heq).1]
  exact Literal.isBlank_of_isWordChar (Literal.isWordChar_of_isWordStart hd)

theorem readCall_eq {name gap inside : List Char} (hname : IsIdentifier name)
    (hgap : AllBlank gap) (hinside : Text.Closed inside) (behind : List Char) :
    readCall (name ++ (gap ++ '(' :: (inside ++ ')' :: behind))) =
      (Argument.readList inside).map fun arguments =>
        ({ method := String.ofList name, arguments }, behind) := by
  have hnonempty : name.isEmpty = false := by
    obtain ⟨c, more, rfl, -⟩ := hname
    rfl
  have hbracket : Text.trimStart (gap ++ '(' :: (inside ++ ')' :: behind)) =
      '(' :: (inside ++ ')' :: behind) := by
    rw [Text.trimStart_append hgap, Text.trimStart_cons (by decide)]
  have hsplit : Text.splitParen ('(' :: (inside ++ ')' :: behind)) = some (inside, behind) :=
    Text.splitParen_of_closed hinside behind
  have hend : ∀ c ∈ (gap ++ '(' :: (inside ++ ')' :: behind)).head?,
      Literal.isWordChar c = false := Literal.head_behind_blanks hgap (by decide) _
  rw [readCall, takeName_of_isIdentifier hname hend]
  simp only [hbracket, hnonempty, hsplit, List.head?_cons, bne_self_eq_false, Bool.or_self,
    Bool.false_eq_true, if_false]

/-- A written call is read up to its parenthesis, whatever follows. -/
theorem readCall_of_written {form : Form} (hform : form.Written text) :
    ∃ trail, AllBlank trail ∧ ∀ behind,
      readCall (Text.trimStart (text ++ behind)) =
        form.read.map fun call => (call, trail ++ behind) := by
  obtain ⟨lead, gap, inside, trail, hlead, hgap, htrail, harguments, rfl⟩ := hform
  refine ⟨trail, htrail, fun behind => ?_⟩
  have hinside := harguments.closed form.wellFormed
  have hstart : Text.trimStart
      (lead ++ (form.name ++ (gap ++ '(' :: (inside ++ ')' :: trail))) ++ behind) =
        form.name ++ (gap ++ '(' :: (inside ++ ')' :: (trail ++ behind))) := by
    obtain ⟨c, more, hcons, -⟩ := form.isIdentifier
    have hc : Text.isBlank c = false := isBlank_of_isIdentifier (hcons ▸ form.isIdentifier)
    simp only [List.append_assoc, List.cons_append, hcons]
    rw [Text.trimStart_append hlead, Text.trimStart_cons hc]
  rw [hstart, readCall_eq form.isIdentifier hgap hinside,
    Argument.readList_of_listed harguments form.wellFormed, Form.read]
  cases form.arguments.mapM Argument.read <;> rfl

/-- What is read as a call is one, up to what is left. -/
theorem exists_written_of_readCall {behind : List Char} {call : Call}
    (hread : readCall text = .ok (call, behind)) :
    ∃ (form : Form) (front : List Char), form.Written front ∧ text = front ++ behind := by
  have htext : (takeName text).1 ++ (takeName text).2 = text := takeName_append text
  unfold readCall at hread
  simp only at hread
  split at hread
  · cases hread
  · next hstart =>
      simp only [Bool.or_eq_true, not_or, Bool.not_eq_true, List.isEmpty_eq_false_iff] at hstart
      split at hread
      · cases hread
      · next inside after hsplit =>
          cases hlist : Argument.readList inside with
          | error failure => rw [hlist] at hread; cases hread
          | ok values =>
              rw [hlist] at hread
              obtain ⟨arguments, harguments, hformed⟩ := Argument.exists_listed_of_readList hlist
              obtain ⟨gap, hgap, hafter⟩ := Text.exists_append_trimStart (takeName text).2
              rw [(Text.of_splitParen hsplit).1] at hafter
              obtain ⟨-, rfl⟩ := Prod.mk.inj (Except.ok.inj hread)
              let form : Form :=
                ⟨(takeName text).1, arguments, isIdentifier_takeName hstart.1, hformed⟩
              have hform : form.Written (form.name ++ (gap ++ '(' :: (inside ++ [')']))) :=
                ⟨[], gap, inside, [], Text.allBlank_nil, hgap, Text.allBlank_nil, harguments, rfl⟩
              refine ⟨form, _, hform, ?_⟩
              calc text = (takeName text).1 ++ (takeName text).2 := htext.symm
                _ = form.name ++ (gap ++ '(' :: (inside ++ ')' :: after)) := by rw [hafter]
                _ = form.name ++ (gap ++ '(' :: (inside ++ [')'])) ++ after := by simp

/-! ## Blanks around calls -/

theorem Written.of_padded (hwritten : Written forms core) (hpadded : Padded core text) :
    Written forms text := by
  induction hwritten generalizing text with
  | last hform => exact .last (hform.of_padded hpadded)
  | @more form forms front rest hform _ ih =>
      obtain ⟨lead, trail, hlead, htrail, rfl⟩ := hpadded
      have hfront : form.Written (lead ++ front) :=
        hform.of_padded ⟨lead, [], hlead, Text.allBlank_nil, by simp⟩
      have hrest : Written forms (rest ++ trail) := ih ⟨[], trail, Text.allBlank_nil, htrail, rfl⟩
      simpa using Written.more hfront hrest

theorem Written.trimEnd (hwritten : Written forms text) : Written forms (Text.trimEnd text) := by
  induction hwritten with
  | last hform => exact .last hform.trimEnd
  | more hform _ ih =>
      rw [Text.trimEnd, Text.trimEndWhile_append_cons (by decide)]
      exact .more hform ih

/-- A chain starts with the name of its first call and ends with a parenthesis. -/
theorem Written.exists_ends (hwritten : Written forms text) :
    ∃ form lead gap inner trail, forms.head? = some form ∧ AllBlank lead ∧ AllBlank gap ∧
      AllBlank trail ∧ text = lead ++ (form.name ++ (gap ++ '(' :: (inner ++ ')' :: trail))) := by
  induction hwritten with
  | @last form text hform =>
      obtain ⟨lead, gap, inside, trail, hlead, hgap, htrail, -, rfl⟩ := hform
      exact ⟨form, lead, gap, inside, trail, rfl, hlead, hgap, htrail, rfl⟩
  | @more form forms text rest hform _ ih =>
      obtain ⟨lead, gap, inside, between, hlead, hgap, -, -, rfl⟩ := hform
      obtain ⟨next, before, nextGap, inner, trail, -, -, -, htrail, rfl⟩ := ih
      let more := before ++ (next.name ++ (nextGap ++ '(' :: inner))
      refine ⟨form, lead, gap, inside ++ ')' :: (between ++ '.' :: more), trail, rfl, hlead, hgap,
        htrail, ?_⟩
      simp [more]

/-! ## Chains -/

theorem readCalls_of_written (hwritten : Written forms text) :
    readCalls (Text.trimStart text) = forms.mapM Form.read := by
  induction hwritten with
  | @last form text hform =>
      obtain ⟨trail, htrail, hread⟩ := readCall_of_written hform
      have hcall := hread []
      rw [List.append_nil, List.append_nil] at hcall
      rw [List.mapM_cons]
      cases hform : form.read with
      | error failure =>
          rw [hform] at hcall
          exact readCalls_of_failure hcall
      | ok call =>
          rw [hform] at hcall
          exact readCalls_of_last hcall (Text.trimStart_eq_nil_iff.mpr htrail)
  | @more form forms text rest hform _ ih =>
      obtain ⟨trail, htrail, hread⟩ := readCall_of_written hform
      have hcall := hread ('.' :: rest)
      rw [List.mapM_cons, ← ih]
      cases hform : form.read with
      | error failure =>
          rw [hform] at hcall
          exact readCalls_of_failure hcall
      | ok call =>
          rw [hform] at hcall
          have hpoint : Text.trimStart (trail ++ '.' :: rest) = '.' :: rest := by
            rw [Text.trimStart_append htrail, Text.trimStart_cons (by decide)]
          rw [readCalls_of_point hcall hpoint]
          cases readCalls (Text.trimStart rest) <;> rfl

theorem exists_written_of_readCalls {calls : List Call} (hread : readCalls text = .ok calls) :
    ∃ forms, Written forms text := by
  -- The reader goes on behind the blanks after a point, so the induction is on the length.
  induction hlength : text.length using Nat.strongRecOn generalizing text calls with
  | ind n ih =>
      rw [readCalls_eq] at hread
      split at hread
      · cases hread
      · next call behind hcall =>
          have hlt := readCall_length hcall
          obtain ⟨form, front, hform, rfl⟩ := exists_written_of_readCall hcall
          obtain ⟨gap, hgap, hbehind⟩ := Text.exists_append_trimStart behind
          -- The blanks behind the parenthesis belong to the call, those behind the point to the
          -- next one.
          have hfront : form.Written (front ++ gap) :=
            hform.of_padded ⟨[], gap, Text.allBlank_nil, hgap, rfl⟩
          split at hread
          · next hend =>
              rw [hend, List.append_nil] at hbehind
              rw [hbehind]
              exact ⟨[form], .last hfront⟩
          · next next hpoint =>
              rw [hpoint] at hbehind
              cases hmore : readCalls (Text.trimStart next) with
              | error failure => rw [hmore] at hread; cases hread
              | ok more =>
                  have hshort : (Text.trimStart next).length < n := by
                    have hle := Text.trimStart_length_le next
                    rw [hlength, hbehind] at hlt
                    simp only [List.length_append, List.length_cons] at hlt
                    omega
                  obtain ⟨forms, hforms⟩ := ih _ hshort hmore rfl
                  have hrest : Written forms next := hforms.of_padded (Text.padded_trimStart next)
                  refine ⟨form :: forms, ?_⟩
                  rw [hbehind, ← List.append_assoc]
                  exact .more hfront hrest
          · cases hread

/-- What is read as a chain starts with the name of its first method. -/
theorem exists_ends_of_read {calls : List Call} (hread : read text = .ok calls) :
    ∃ lead name gap inner trail, IsIdentifier name ∧
      calls.head?.map Call.method = some (String.ofList name) ∧ AllBlank lead ∧ AllBlank gap ∧
      AllBlank trail ∧ text = lead ++ (name ++ (gap ++ '(' :: (inner ++ ')' :: trail))) := by
  obtain ⟨forms, hwritten⟩ := exists_written_of_readCalls hread
  have htext : Written forms text := hwritten.of_padded (Text.padded_trim text)
  have hforms : forms.mapM Form.read = .ok calls := by
    rw [← readCalls_of_written htext.trimEnd, Text.trimStart_trimEnd]
    exact hread
  obtain ⟨form, lead, gap, inner, trail, hhead, hlead, hgap, htrail, rfl⟩ := htext.exists_ends
  refine ⟨lead, form.name, gap, inner, trail, form.isIdentifier, ?_, hlead, hgap, htrail, rfl⟩
  cases forms with
  | nil => cases hhead
  | cons first more =>
      obtain rfl := Option.some.inj hhead
      rw [List.mapM_cons] at hforms
      cases hfirst : first.read with
      | error failure => rw [hfirst] at hforms; cases hforms
      | ok call =>
          cases hmore : more.mapM Form.read with
          | error failure => rw [hfirst, hmore] at hforms; cases hforms
          | ok rest =>
              rw [hfirst, hmore] at hforms
              obtain ⟨arguments, -, rfl⟩ := Outcome.map_eq_ok_iff.mp hfirst
              rw [← Except.ok.inj hforms]
              rfl

/-- **A text is read as a chain exactly when it is one.**  Calls with points between them are
read call by call and argument by argument, and the first failure counts; and whatever is
read was written so. -/
theorem read_exactly_written :
    (∀ (forms : List Form) (text : List Char), Written forms text →
      read text = forms.mapM Form.read) ∧
    ∀ (text : List Char) (calls : List Call), read text = .ok calls →
      ∃ forms, Written forms text ∧ forms.mapM Form.read = .ok calls := by
  have hforward : ∀ (forms : List Form) (text : List Char), Written forms text →
      read text = forms.mapM Form.read := by
    intro forms text hwritten
    rw [read, ← Text.trimStart_trimEnd]
    exact readCalls_of_written hwritten.trimEnd
  refine ⟨hforward, fun text calls hread => ?_⟩
  obtain ⟨forms, hwritten⟩ := exists_written_of_readCalls hread
  have htext : Written forms text := hwritten.of_padded (Text.padded_trim text)
  exact ⟨forms, htext, (hforward forms text htext).symm.trans hread⟩

/-- Points and parentheses in a string, blanks around the parts, and a comma behind the last
argument. -/
theorem read_exactly_written_quoted :
    let text := " find ( 'a.)' , true ,) . sort()".toList
    let calls : List Call := [⟨"find", [.string "a.)", .boolean true]⟩, ⟨"sort", []⟩]
    read text = .ok calls ∧ ∃ forms, Written forms text ∧ forms.mapM Form.read = .ok calls := by
  intro text calls
  have hquoted : Argument.IsWellFormed "'a.)'".toList := ⟨by decide, rfl, by decide⟩
  have hword : Argument.IsWellFormed "true".toList := ⟨by decide, rfl, by decide⟩
  let find : Form :=
    { name := "find".toList
      arguments := ["'a.)'".toList, "true".toList]
      isIdentifier := ⟨'f', "ind".toList, rfl, rfl, List.all_eq_true.mp rfl⟩
      wellFormed := by simpa using And.intro hquoted hword }
  let sort : Form :=
    { name := "sort".toList
      arguments := []
      isIdentifier := ⟨'s', "ort".toList, rfl, rfl, List.all_eq_true.mp rfl⟩
      wellFormed := by simp }
  have hfind : find.Written " find ( 'a.)' , true ,) ".toList := by
    have hpadded : List.Forall₂ Padded find.arguments [" 'a.)' ".toList, " true ".toList] :=
      .cons ⟨[' '], [' '], by decide, by decide, rfl⟩
        (.cons ⟨[' '], [' '], by decide, by decide, rfl⟩ .nil)
    exact ⟨[' '], [' '], " 'a.)' , true ,".toList, [' '], by decide, by decide, by decide,
      .trailing (by simp [find]) hpadded Text.allBlank_nil, rfl⟩
  have hsort : sort.Written " sort()".toList :=
    ⟨[' '], [], [], [], by decide, by decide, by decide, .empty Text.allBlank_nil, rfl⟩
  have hwritten : Written [find, sort] text := .more hfind (.last hsort)
  have hread : read text = .ok calls :=
    (read_exactly_written.1 [find, sort] text hwritten).trans rfl
  exact ⟨hread, read_exactly_written.2 text calls hread⟩

end Chain

end DocShell
