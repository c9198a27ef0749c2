import DocShell.Proofs.Call.Grammar
import DocShell.Proofs.Command.Routing
import DocShell.Proofs.Text.StringLiteral

/-!
# Names between quotes

`getCollection('my items')` reaches the collection `my items`, and so does every name without
quotes and backslashes.  The other way round, what stands in the parentheses of a line that is
understood is a text between two quotes, but not always one literal: in `getCollection('a', 'b')`
the first literal and the last one are read as a single name (`name_across_two_literals`).

## Strategy

Two readers look at the parentheses and know nothing of each other.  One follows the strings in
the text to find where the parenthesis is closed; the other takes a quote away at each end.

* The closing parenthesis stands outside of strings (`outside_of_closeParen`), so a scan is
  outside in front of the first quote and behind the last one.  What stands between is one
  literal, or one at each end (`Enclosed.isLiteral_iff`).
* A name without quotes and backslashes is closed where it ends, which is why both readers see
  the same (`enclosed_of_plain`, `name?_quoted`).
* The chain behind such a name starts with a method, and is read again from there
  (`exists_method_of_read`).
-/

namespace DocShell

open Text (AllBlank IsLiteral HasTwoLiterals Scan)

/-! ## The parenthesis that closes -/

/-- The parenthesis that closes another one does not stand in a string. -/
theorem Text.Scan.outside_of_closeParen {s : Scan} (hs : s.Proper) {text inside behind : List Char}
    (hclose : s.closeParen text = some (inside, behind)) :
    (s.run inside).nesting.quote = none := by
  induction text generalizing s inside with
  | nil => cases hclose
  | cons c rest ih =>
      simp only [Scan.closeParen] at hclose
      split at hclose
      · next hfound =>
          simp only [Option.some.injEq, Prod.mk.injEq] at hclose
          obtain ⟨rfl, -⟩ := hclose
          simp only [Bool.and_eq_true, beq_iff_eq, Bool.not_eq_true', Nesting.inString,
            Option.isSome_eq_false_iff, Option.isNone_iff_eq_none] at hfound
          obtain ⟨⟨rfl, -⟩, houtside⟩ := hfound
          cases hquote : s.nesting.quote with
          | none => exact hquote
          | some quote =>
              rcases Scan.step_of_inside hquote ')' with hstay | ⟨-, rfl, -⟩
              · rw [hstay] at houtside
                cases houtside
              · exact absurd (hs.quote _ hquote) (by decide)
      · simp only [Option.map_eq_some_iff, Prod.mk.injEq] at hclose
        obtain ⟨⟨before, after⟩, hrest, rfl, rfl⟩ := hclose
        exact ih (hs.step c) hrest

namespace Reference

variable {inside name text : List Char} {quote : Char}

theorem unquote?_eq_some_iff :
    unquote? quote text = some name ↔ text = quote :: (name ++ [quote]) := by
  cases text with
  | nil => simp [unquote?]
  | cons c rest =>
      cases rest using List.reverseRecOn with
      | nil => simp [unquote?]
      | append_singleton rest d =>
          simp only [unquote?, List.getLast?_concat, List.dropLast_concat]
          by_cases hc : c = quote <;> by_cases hd : d = quote <;> simp_all

/-- What counts as a name between quotes: apart from blanks, a quote, the name and the quote
again. -/
theorem quotedName?_eq_some_iff :
    quotedName? inside = some name ↔
      name ≠ [] ∧ ∃ quote, Text.isQuote quote = true ∧
        Text.trim inside = quote :: (name ++ [quote]) := by
  have hquotes : ∀ quote, Text.isQuote quote = true ↔ quote = '"' ∨ quote = '\'' := by
    simp [Text.isQuote]
  have hfound : ((unquote? '"' (Text.trim inside)).orElse fun _ =>
      unquote? '\'' (Text.trim inside)) = some name ↔
        ∃ quote, Text.isQuote quote = true ∧ Text.trim inside = quote :: (name ++ [quote]) := by
    simp only [hquotes, or_and_right, exists_or, exists_eq_left]
    cases hdouble : unquote? '"' (Text.trim inside) with
    | some found =>
        rw [unquote?_eq_some_iff] at hdouble
        simp [hdouble]
    | none =>
        have hnot : Text.trim inside ≠ '"' :: (name ++ ['"']) := by
          rw [ne_eq, ← unquote?_eq_some_iff, hdouble]
          simp
        simp [hnot, unquote?_eq_some_iff]
  rw [quotedName?, Option.filter_eq_some_iff, hfound]
  simp [and_comm]

/-- The name that a segment gives: a word, or what stands between two quotes, which is one
literal unless there is one at each end. -/
inductive Segment.Gives : Segment → List Char → Prop where
  | name {text name : List Char} (hname : isName name = true)
      (hpadded : Text.Padded name text) : Gives (.name text) name
  | call {inside name : List Char} {quote : Char} (hne : name ≠ [])
      (hpadded : Text.Padded (quote :: (name ++ [quote])) inside)
      (hliteral : IsLiteral quote name ↔ ¬ HasTwoLiterals quote name) : Gives (.call inside) name

theorem Enclosed.isLiteral_iff (henclosed : Enclosed inside) (hquote : Text.isQuote quote = true)
    (hpadded : Text.Padded (quote :: (name ++ [quote])) inside) :
    IsLiteral quote name ↔ ¬ HasTwoLiterals quote name := by
  obtain ⟨lead, trail, hlead, htrail, rfl⟩ := hpadded
  have hopen : (({} : Scan).step '(').Proper := Scan.proper_start.step '('
  have hend := Scan.outside_of_closeParen hopen (henclosed [])
  let start := (({} : Scan).step '(').run lead
  have hstart : start.Proper := hopen.run lead
  rw [Literal.run_append, Literal.run_append] at hend
  have hinside := (hstart.run (quote :: (name ++ [quote]))).run_blank htrail
  rw [hinside.1] at hend
  have houtside : start.nesting.quote = none := by
    rw [(hopen.run_blank hlead).1]
    rfl
  exact Text.isLiteral_iff hstart houtside hquote hend

theorem Segment.Written.gives {segment : Segment} (hwritten : segment.Written text)
    (hname : segment.name? = some name) : segment.Gives name := by
  cases hwritten with
  | name _ =>
      rw [Segment.name?] at hname
      split at hname
      · next hvalid =>
          obtain rfl := Option.some.inj hname
          exact .name hvalid (Text.padded_trim _)
      · cases hname
  | @call _ inside _ _ henclosed _ =>
      obtain ⟨hne, quote, hquote, htrim⟩ := quotedName?_eq_some_iff.mp hname
      have hpadded := Text.padded_trim inside
      rw [htrim] at hpadded
      exact .call hne hpadded (henclosed.isLiteral_iff hquote hpadded)

theorem Leads.gives {segments : List Segment} {method front : List Char}
    (hleads : Leads segments method front) {names : List (List Char)}
    (hnames : segments.mapM Segment.name? = some names) :
    List.Forall₂ Segment.Gives segments names := by
  induction hleads generalizing names with
  | method _ _ =>
      obtain rfl : [] = names := by simpa using hnames
      exact .nil
  | @segment segment segments text method rest hsegment _ ih =>
      rw [List.mapM_cons] at hnames
      obtain ⟨name, hname, hmore⟩ := Option.bind_eq_some_iff.mp hnames
      obtain ⟨others, hothers, hcons⟩ := Option.bind_eq_some_iff.mp hmore
      obtain rfl := Option.some.inj hcons
      exact .cons (hsegment.gives hname) (ih hothers)

/-! ## One literal in plain letters -/

/-- A name in quotes that holds neither quotes nor backslashes is closed where it ends. -/
theorem enclosed_of_plain (hquote : Text.isQuote quote = true)
    (hplain : ∀ c ∈ name, Text.isQuote c = false ∧ c ≠ '\\') :
    Enclosed (quote :: (name ++ [quote])) := by
  have hinert : Literal.Inert quote (name ++ []) :=
    (Literal.inert_nil quote).append fun c hc =>
      ⟨Literal.ne_of_isQuote hquote (hplain c hc).1, (hplain c hc).2⟩
  rw [List.append_nil] at hinert
  exact Text.splitParen_of_closed (hinert.quoted hquote {} ⟨rfl, rfl⟩)

theorem trim_quoted (hquote : Text.isQuote quote = true) (name : List Char) :
    Text.trim (quote :: (name ++ [quote])) = quote :: (name ++ [quote]) := by
  have hblank : Text.isBlank quote = false := Literal.isBlank_of_isQuote hquote
  have hlast : ∀ c ∈ (quote :: (name ++ [quote])).getLast?, Text.isBlank c = false := by
    rw [← List.cons_append, List.getLast?_concat]
    simpa using hblank
  simpa using Text.trim_append Text.allBlank_nil Text.allBlank_nil ⟨quote, _, rfl, hblank⟩ hlast

theorem name?_quoted (hquote : Text.isQuote quote = true) (hne : name ≠ []) :
    (Segment.call (quote :: (name ++ [quote]))).name? = some name :=
  quotedName?_eq_some_iff.mpr ⟨hne, quote, hquote, trim_quoted hquote name⟩

end Reference

namespace Command

open Reference (Segment isName insideName)

/-! ## The chain behind a reference -/

theorem bareEnd_append_paren {inner trail : List Char} (htrail : AllBlank trail) :
    bareEnd (inner ++ ')' :: trail) = inner ++ [')'] := by
  have hkept : ∀ (drop : Char → Bool) (trail : List Char), drop ')' = false →
      (∀ c ∈ trail, drop c = true) →
      Text.trimEndWhile drop (inner ++ ')' :: trail) = inner ++ [')'] := by
    intro drop trail hdrop htrail
    rw [Text.trimEndWhile_append_cons hdrop, Text.trimEndWhile_of_all htrail]
  simp only [bareEnd, Text.trimEnd]
  rw [hkept _ _ (by decide) htrail, hkept _ _ (by decide) (by simp),
    hkept _ _ (by decide) (by simp)]

theorem isName_of_isIdentifier {name : List Char} (hname : Chain.IsIdentifier name) :
    isName name = true := by
  obtain ⟨c, more, rfl, hc, hmore⟩ := hname
  have hword : ∀ d ∈ c :: more, Literal.isWordChar d = true := by
    rw [List.forall_mem_cons]
    exact ⟨Literal.isWordChar_of_isWordStart hc, hmore⟩
  simp only [isName, List.isEmpty_cons, Bool.not_false, Bool.true_and, List.all_eq_true]
  intro d hd
  have hd := hword d hd
  simp only [Literal.isWordChar, Bool.or_eq_true] at hd
  simp only [Reference.isNameChar, Bool.or_eq_true]
  tauto

theorem insideName_of_isName {name : List Char} (hname : isName name = true) :
    ∀ c ∈ name, insideName c = true :=
  fun c hc => (plain_of_isNameChar ((exists_cons_of_isName hname).1 c hc)).1

/-- What is read as a chain starts with a method that a reference can end with, and is the same
chain without the blanks around it. -/
theorem exists_method_of_read {text : List Char} {calls : List Call}
    (hread : Chain.read text = .ok calls) :
    ∃ called rest, text = called ++ '(' :: rest ∧ (∀ c ∈ called, insideName c = true) ∧
      isName (Text.trim called) = true ∧
      calls.head?.map Call.method = some (String.ofList (Text.trim called)) ∧
      Chain.read (Text.trimStart called ++ '(' :: bareEnd rest) = .ok calls := by
  obtain ⟨lead, name, gap, inner, trail, hidentifier, hhead, hlead, hgap, htrail, rfl⟩ :=
    Chain.exists_ends_of_read hread
  have hname : isName name = true := isName_of_isIdentifier hidentifier
  have hinside : ∀ {gap : List Char}, AllBlank gap → ∀ c ∈ gap, insideName c = true :=
    fun hgap c hc => Reference.insideName_of_isBlank (hgap c hc)
  have hcalled : Text.Padded name (lead ++ (name ++ gap)) := ⟨lead, gap, hlead, hgap, rfl⟩
  have htrim : Text.trim (lead ++ (name ++ gap)) = name :=
    hcalled.trim_eq.trans (trim_of_isName hname)
  have hstart : Text.trimStart (lead ++ (name ++ gap)) = name ++ gap := by
    obtain ⟨hall, c, more, rfl⟩ := exists_cons_of_isName hname
    rw [Text.trimStart_append hlead, List.cons_append,
      Text.trimStart_cons (plain_of_isNameChar (hall c List.mem_cons_self)).2]
  refine ⟨lead ++ (name ++ gap), inner ++ ')' :: trail, by simp, ?_, by rwa [htrim],
    by rwa [htrim], ?_⟩
  · rw [List.forall_mem_append, List.forall_mem_append]
    exact ⟨hinside hlead, insideName_of_isName hname, hinside hgap⟩
  · have hpadded : Text.Padded (name ++ gap ++ '(' :: (inner ++ [')']))
        (lead ++ (name ++ (gap ++ '(' :: (inner ++ ')' :: trail)))) :=
      ⟨lead, trail, hlead, htrail, by simp⟩
    rw [hstart, bareEnd_append_paren htrail, ← hread, Chain.read, Chain.read, hpadded.trim_eq]

/-! ## The collection that is reached -/

/-- **The collection is what stands between quotes.**  Of a line that is understood, each call
of `getCollection` has, apart from blanks, a text between two quotes in its parentheses, and
that text is the segment.  It is one literal unless a second one stands at its end.  And one
literal reaches every name without quotes and backslashes. -/
theorem collection_between_quotes (current : Option String) :
    (∀ (line : String) (command : Command), read line current = .ok command → '(' ∈ line.toList →
      ∃ segments method front rest reference, Leads segments method front ∧
        line.toList = front ++ '(' :: rest ∧ reference? line = some reference ∧
        ofReference (selected? current) reference = .ok command ∧
        List.Forall₂ (fun segment name => segment.Gives name.toList) segments
          reference.segments) ∧
    ∀ (database name chain : String) (calls : List Call),
      isName database.toList = true → name ≠ "" →
      (∀ c ∈ name.toList, Text.isQuote c = false ∧ c ≠ '\\') →
      Chain.read chain.toList = .ok calls →
      (∀ call ∈ calls.head?,
        call.method ≠ "getCollection" ∧ call.method ≠ "getCollectionNames") →
      read ("db." ++ database ++ ".getCollection('" ++ name ++ "')." ++ chain) current =
        .ok (.chain ⟨database, name⟩ calls) := by
  constructor
  · intro line command hread hparen
    obtain ⟨reference, hreference⟩ := exists_reference_of_read hread hparen
    obtain ⟨segments, method, front, rest, hleads, hline⟩ := exists_leads_of_reference? hreference
    rw [read_of_reference? hreference] at hread
    refine ⟨segments, method, front, rest, reference, hleads, hline, hreference, hread, ?_⟩
    rw [reference?_of_leads hleads hline] at hreference
    split at hreference
    · obtain ⟨names, hnames, rfl⟩ := Option.map_eq_some_iff.mp hreference
      obtain ⟨_, start, _, _, hstart⟩ := hleads
      simpa [List.forall₂_map_right_iff] using hstart.gives hnames
    · cases hreference
  · intro database name chain calls hdatabase hname hplain hchain hmethod
    obtain ⟨called, rest, htext, hcalled, hvalid, hhead, hread⟩ := exists_method_of_read hchain
    obtain ⟨call, hcall, hfirst⟩ := Option.map_eq_some_iff.mp hhead
    obtain ⟨hget, hlist⟩ := hmethod call hcall
    have hne : ∀ text : List Char, call.method ≠ String.ofList text → Text.trim called ≠ text := by
      rintro text hother rfl
      exact hother hfirst
    have hquote : Text.isQuote '\'' = true := rfl
    have hleads := leads_of_call (insideName_of_isName hdatabase)
      (Reference.enclosed_of_plain hquote hplain) hcalled (hne _ hget)
    have hnames : [Segment.name database.toList, .call ('\'' :: (name.toList ++ ['\'']))].mapM
        Segment.name? = some [database.toList, name.toList] := by
      have hsegment : (Segment.name database.toList).name? = some database.toList := by
        rw [Segment.name?, trim_of_isName hdatabase, if_pos hdatabase]
      rw [List.mapM_cons, hsegment, List.mapM_cons,
        Reference.name?_quoted hquote (by simpa using hname)]
      rfl
    have hline : ("db." ++ database ++ ".getCollection('" ++ name ++ "')." ++ chain).toList =
        "db.".toList ++ database.toList ++ ".getCollection(".toList ++
          ('\'' :: (name.toList ++ ['\''])) ++ ").".toList ++ called ++ '(' :: rest := by
      simp only [String.toList_append, htext, List.append_assoc, List.cons_append]
      rfl
    have hreference := reference?_of_leads hleads hline
    rw [if_pos hvalid, hnames] at hreference
    rw [read_of_reference? hreference]
    exact ofReference_of_qualified (hne _ hlist) (by simp) hread _

/-- A name with blanks, points and parentheses, in front of a chain with blanks around it. -/
theorem collection_between_quotes_marks :
    let line := "db.shop.getCollection('my (old.) items'). find() "
    isName "shop".toList = true ∧ Chain.read " find() ".toList = .ok [⟨"find", []⟩] ∧
      read line (some "stock") = .ok (.chain ⟨"shop", "my (old.) items"⟩ [⟨"find", []⟩]) ∧
      ∃ segments method front rest reference, Leads segments method front ∧
        line.toList = front ++ '(' :: rest ∧ reference? line = some reference ∧
        ofReference (selected? (some "stock")) reference =
          .ok (.chain ⟨"shop", "my (old.) items"⟩ [⟨"find", []⟩]) ∧
        List.Forall₂ (fun segment name => segment.Gives name.toList) segments
          reference.segments := by
  intro line
  have hdatabase : isName "shop".toList = true := by decide
  have hchain : Chain.read " find() ".toList = .ok [⟨"find", []⟩] := Chain.readCalls_of_last rfl rfl
  have hread := (collection_between_quotes (some "stock")).2 "shop" "my (old.) items" " find() " _
    hdatabase (by decide) (by simp [Text.isQuote]) hchain (by simp)
  have hline : "db." ++ "shop" ++ ".getCollection('" ++ "my (old.) items" ++ "')." ++ " find() " =
      line := by decide
  rw [hline] at hread
  exact ⟨hdatabase, hchain, hread, (collection_between_quotes _).1 line _ hread (by decide)⟩

/-- Two literals are taken for one: the name goes from the first quote to the last one. -/
theorem name_across_two_literals :
    let line := "db.shop.getCollection('a', 'b').find()"
    let inside := "'a', 'b'".toList
    let front := "db.shop.getCollection('a', 'b').find".toList
    Leads [.name "shop".toList, .call inside] "find".toList front ∧
      line.toList = front ++ "()".toList ∧
      read line none = .ok (.chain ⟨"shop", "a', 'b"⟩ [⟨"find", []⟩]) ∧
      ∀ quote content, Text.Padded (quote :: (content ++ [quote])) inside →
        ¬ IsLiteral quote content := by
  intro line inside front
  have hleads : Leads [.name "shop".toList, .call inside] "find".toList front :=
    leads_of_call (List.all_eq_true.mp rfl) (Text.splitParen_of_closed rfl)
      (List.all_eq_true.mp rfl) (by decide)
  have hline : line.toList = front ++ "()".toList := by decide
  refine ⟨hleads, hline, ?_, fun quote content hpadded hliteral => ?_⟩
  · have hreference : reference? line = some
        { segments := ["shop", "a', 'b"], method := "find".toList, chain := "find()".toList,
          arguments := "()".toList } := (reference?_of_leads hleads hline).trans rfl
    have hchain : Chain.read "find()".toList = .ok [⟨"find", []⟩] :=
      Chain.readCalls_of_last rfl rfl
    exact (read_of_reference? hreference none).trans
      (ofReference_of_qualified (by decide) rfl hchain _)
  · have htrim := hpadded.trim_eq
    rw [Reference.trim_quoted hliteral.quoted] at htrim
    obtain ⟨rfl, hcontent⟩ := List.cons.inj (htrim : inside = _)
    have hname : content = "a', 'b".toList := (List.append_inj_left' hcontent rfl).symm
    have hopen := hliteral.inside "a'".toList ", 'b".toList hname
    exact absurd hopen (by decide)

end Command

end DocShell
