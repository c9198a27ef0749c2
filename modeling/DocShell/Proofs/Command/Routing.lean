import DocShell.Proofs.Command.Shorthand

/-!
# What routes a command

Where a command goes is settled in front of the first parenthesis that is not part of a
reference.  What stands behind it, points, quotes and further calls of `getCollection`
included, can make the line fail, and cannot send it elsewhere.

## Strategy

* A line with a parenthesis that is understood at all is read by its reference
  (`exists_reference_of_read`), since neither `show …` nor `use …` can hold one.
* A reference starts with a text that `Leads` to the parenthesis, and that text alone decides
  segments and method (`Reference.read?_leads`).  The line may have blanks in front and may
  lose blanks and semicolons at its end (`reference?_of_leads`).
* Segments and method, with the current database, are all that a route is made of
  (`destination?_of_ofReference`).
-/

namespace DocShell.Command

open Reference (Segment isName isNameChar)
open Text (AllBlank)

variable {line name : String} {current : Option String} {reference : Reference}
  {command other : Command} {segments : List Segment} {method front rest text : List Char}

/-- The kind of a command, and the database or collection that it is about. -/
inductive Route where
  | databases
  | collections (database : String)
  | switch (database : String)
  | chain (ns : Namespace)
  deriving DecidableEq, Repr

/-- Where a command goes, whatever it does there. -/
def route : Command → Route
  | .showDatabases => .databases
  | .listCollections database => .collections database
  | .useDatabase name => .switch name
  | .chain ns _ => .chain ns

/-- The text in front of the first parenthesis of a line that is not part of a segment of its
reference: blanks, `db.`, these segments and the name of this method.  A parenthesis in a
name between the parentheses of `getCollection` is part of that segment. -/
def Leads (segments : List Segment) (method front : List Char) : Prop :=
  ∃ lead reference, AllBlank lead ∧ front = lead ++ (['d', 'b', '.'] ++ reference) ∧
    Reference.Leads segments method reference

/-! ## The bare line -/

/-- What a line loses: blanks in front, blanks and semicolons at the end. -/
theorem exists_append_bare (line : List Char) :
    ∃ lead trail, AllBlank lead ∧ (∀ c ∈ trail, Text.isBlank c = true ∨ c = ';') ∧
      line = lead ++ (bare line ++ trail) := by
  obtain ⟨lead, blanks, hlead, hblanks, hline⟩ := Text.padded_trim line
  obtain ⟨semicolons, hsemicolons, htrim⟩ :=
    Text.exists_append_trimEndWhile (· == ';') (Text.trim line)
  obtain ⟨inner, more, hinner, hmore, hbare⟩ :=
    Text.padded_trim (Text.trimEndWhile (· == ';') (Text.trim line))
  refine ⟨lead ++ inner, more ++ (semicolons ++ blanks), hlead.append hinner, fun c hc => ?_, ?_⟩
  · rcases List.mem_append.mp hc with hc | hc
    · exact Or.inl (hmore c hc)
    · rcases List.mem_append.mp hc with hc | hc
      · exact Or.inr (by simpa using hsemicolons c hc)
      · exact Or.inl (hblanks c hc)
  · calc line = lead ++ (Text.trim line ++ blanks) := hline
      _ = lead ++ (Text.trimEndWhile (· == ';') (Text.trim line) ++ semicolons ++ blanks) := by
        rw [← htrim]
      _ = lead ++ (inner ++ (bare line ++ more) ++ semicolons ++ blanks) := by
        rw [bare, ← hbare]
      _ = lead ++ inner ++ (bare line ++ (more ++ (semicolons ++ blanks))) := by
        simp only [List.append_assoc]

theorem bare_blank_append {lead : List Char} (hlead : AllBlank lead) (text : List Char) :
    bare (lead ++ text) = bare text := by
  have hpadded : Text.Padded text (lead ++ text) :=
    ⟨lead, [], hlead, Text.allBlank_nil, by rw [List.append_nil]⟩
  rw [bare, bare, hpadded.trim_eq]

theorem mem_bare_of_mem {c : Char} (hblank : Text.isBlank c = false) (hsemicolon : c ≠ ';')
    {line : List Char} (hmem : c ∈ line) : c ∈ bare line := by
  obtain ⟨lead, trail, hlead, htrail, hline⟩ := exists_append_bare line
  rw [hline, List.mem_append, List.mem_append] at hmem
  rcases hmem with hmem | hmem | hmem
  · exact absurd (hlead c hmem) (by simp [hblank])
  · exact hmem
  · exact absurd (htrail c hmem) (by simp [hblank, hsemicolon])

/-! ## Lines with a parenthesis -/

theorem exists_piece_of_mem {cut : Char → Bool} {c : Char} (hc : cut c = false)
    (hmem : c ∈ text) : ∃ piece ∈ Text.pieces cut text, c ∈ piece := by
  induction text with
  | nil => cases hmem
  | cons d text ih =>
      rw [Text.pieces]
      split
      · next hd =>
          have hne : c ≠ d := by
            rintro rfl
            rw [hc] at hd
            cases hd
          obtain ⟨piece, hpiece, hin⟩ := ih ((List.mem_cons.mp hmem).resolve_left hne)
          exact ⟨piece, List.mem_cons_of_mem _ hpiece, hin⟩
      · split
        · next hnil => exact absurd hnil (Text.pieces_ne_nil cut text)
        · next first more hpieces =>
            rcases List.mem_cons.mp hmem with rfl | hmem
            · exact ⟨c :: first, List.mem_cons_self, List.mem_cons_self⟩
            · obtain ⟨piece, hpiece, hin⟩ := ih hmem
              rw [hpieces] at hpiece
              rcases List.mem_cons.mp hpiece with rfl | hpiece
              · exact ⟨d :: piece, List.mem_cons_self, List.mem_cons_of_mem d hin⟩
              · exact ⟨piece, List.mem_cons_of_mem _ hpiece, hin⟩

theorem exists_word_of_mem {c : Char} (hc : Text.isBlank c = false) (hmem : c ∈ text) :
    ∃ word ∈ Text.words text, c ∈ word := by
  obtain ⟨piece, hpiece, hin⟩ := exists_piece_of_mem hc hmem
  refine ⟨piece, List.mem_filter.mpr ⟨hpiece, ?_⟩, hin⟩
  cases piece with
  | nil => cases hin
  | cons d more => rfl

/-- The words of `show …` and `use …` are names, if the line is understood. -/
theorem isName_of_ofWords {words : List String}
    (hwords : ofWords current words = some (.ok command)) :
    ∀ word ∈ words, isName word.toList = true := by
  unfold ofWords at hwords
  split at hwords
  · decide
  · decide
  · simp [databaseRequired] at hwords
  · next name =>
      split at hwords
      · next hname =>
          rw [List.forall_mem_cons, List.forall_mem_singleton]
          exact ⟨by decide, hname⟩
      · simp [unknown] at hwords
  · simp [unknown] at hwords
  · simp [unknown] at hwords
  · cases hwords

/-- Apart from blanks, such a line holds only what names are made of. -/
theorem isNameChar_of_ofWords {c : Char}
    (hwords : ofWords current ((Text.words text).map String.ofList) = some (.ok command))
    (hblank : Text.isBlank c = false) (hmem : c ∈ text) : isNameChar c = true := by
  obtain ⟨word, hword, hin⟩ := exists_word_of_mem hblank hmem
  have hname := isName_of_ofWords hwords _ (List.mem_map_of_mem hword)
  rw [String.toList_ofList] at hname
  exact (exists_cons_of_isName hname).1 c hin

theorem exists_reference_of_read (hread : read line current = .ok command)
    (hparen : '(' ∈ line.toList) : ∃ reference, reference? line = some reference := by
  unfold read at hread
  simp only at hread
  split at hread
  · cases hread
  · split at hread
    · next outcome hwords =>
        subst hread
        have hmem := mem_bare_of_mem (by decide) (by decide) hparen
        exact absurd (isNameChar_of_ofWords hwords (by decide) hmem) (by decide)
    · split at hread
      · simp [unknown] at hread
      · next rest hrest =>
          split at hread
          · next reference hreference =>
              exact ⟨reference, by rw [reference?, hrest]; exact hreference⟩
          · simp [unknown] at hread

/-- A database, and a collection by a call. -/
theorem leads_of_call {database inside called : List Char}
    (hdatabase : ∀ c ∈ database, Reference.insideName c = true)
    (hinside : Reference.Enclosed inside) (hcalled : ∀ c ∈ called, Reference.insideName c = true)
    (hother : Text.trim called ≠ Reference.getCollection) :
    Leads [.name database, .call inside] called
      ("db.".toList ++ database ++ ".getCollection(".toList ++ inside ++ ").".toList ++
        called) := by
  have hfirst : Segment.Written (.name database) (database ++ ['.']) := .name hdatabase
  have hsecond : Segment.Written (.call inside)
      (Reference.getCollection ++ '(' :: (inside ++ ')' :: ([] ++ ['.']))) :=
    .call (by decide) hinside Text.allBlank_nil
  refine ⟨[], _, Text.allBlank_nil, ?_, .segment hfirst (.segment hsecond (.method hcalled hother))⟩
  have hcall : ".getCollection(".toList = '.' :: (Reference.getCollection ++ ['(']) := rfl
  simp only [hcall, List.append_assoc, List.cons_append, List.nil_append]
  rfl

/-- Blanks and semicolons at the end of the line stand behind the parenthesis. -/
theorem reference?_of_leads (hleads : Leads segments method front)
    (hline : line.toList = front ++ '(' :: rest) :
    reference? line =
      if isName (Text.trim method) then
        (segments.mapM Segment.name?).map fun names =>
          { segments := names.map String.ofList, method := Text.trim method,
            chain := Text.trimStart method ++ '(' :: bareEnd rest,
            arguments := '(' :: bareEnd rest }
      else none := by
  obtain ⟨lead, start, hlead, rfl, hstart⟩ := hleads
  have hbare : bare line.toList = ['d', 'b', '.'] ++ (start ++ '(' :: bareEnd rest) := by
    have hfront : ∀ rest, Text.trimStart (['d', 'b', '.'] ++ start ++ rest) =
        ['d', 'b', '.'] ++ start ++ rest := fun rest => Text.trimStart_cons (by decide) _
    rw [hline, List.append_assoc, bare_blank_append hlead, bare_append_paren hfront,
      List.append_assoc]
  rw [reference?, Text.behind?_eq_some_iff.mpr hbare, Option.bind_some,
    Reference.read?_leads hstart]

theorem exists_leads_of_reference? (hreference : reference? line = some reference) :
    ∃ segments method front rest, Leads segments method front ∧
      line.toList = front ++ '(' :: rest := by
  obtain ⟨text, hbehind, hread⟩ := Option.bind_eq_some_iff.mp hreference
  obtain ⟨segments, method, start, arguments, hleads, rfl⟩ :=
    Reference.exists_leads_of_read? hread
  obtain ⟨lead, trail, hlead, -, hline⟩ := exists_append_bare line.toList
  rw [Text.behind?_eq_some_iff.mp hbehind] at hline
  exact ⟨segments, method, _, arguments ++ trail, ⟨lead, start, hlead, rfl, hleads⟩,
    by simpa using hline⟩

/-! ## Routes -/

/-- The route of a listing, if its segments allow one. -/
def listed? (current : Option String) : List String → Option Route
  | [] => current.map .collections
  | [database] => some (.collections database)
  | _ :: _ :: _ => none

/-- The route of a chain, if its segments allow one. -/
def chained? (current : Option String) : List String → Option Route
  | [] => none
  | [collection] => current.map fun database => .chain ⟨database, collection⟩
  | database :: first :: more => some (.chain ⟨database, ".".intercalate (first :: more)⟩)

/-- The route that segments and method of a reference give, if they give one. -/
def destination? (current : Option String) (segments : List String) (method : List Char) :
    Option Route :=
  if method = listMethod then listed? current segments else chained? current segments

theorem destination?_of_ofListing (hmethod : reference.method = listMethod)
    (hread : ofListing current reference = .ok command) :
    destination? current reference.segments reference.method = some command.route := by
  unfold ofListing at hread
  rw [destination?, if_pos hmethod]
  split at hread
  · cases hread
  · split at hread
    · next hsegments => rw [hsegments, ← Except.ok.inj hread]; rfl
    · next hsegments => rw [hsegments, ← Except.ok.inj hread]; rfl
    · simp [databaseRequired] at hread
    · simp [unknown] at hread

theorem route_of_ofChain {ns : Namespace} (hread : ofChain ns text = .ok command) :
    command.route = .chain ns := by
  obtain ⟨calls, -, rfl⟩ := exists_chain_of_ofChain hread
  rfl

/-- A chain on a collection whose database is named. -/
theorem ofReference_of_qualified {database collection : String} {calls : List Call}
    (hmethod : reference.method ≠ listMethod)
    (hsegments : reference.segments = [database, collection])
    (hread : Chain.read reference.chain = .ok calls) (current : Option String) :
    ofReference current reference = .ok (.chain ⟨database, collection⟩ calls) := by
  unfold ofReference
  rw [if_neg (by simpa using hmethod), hsegments]
  simp only [ofChain, hread]
  rfl

/-- An understood reference goes where its segments and method say. -/
theorem destination?_of_ofReference (hread : ofReference current reference = .ok command) :
    destination? current reference.segments reference.method = some command.route := by
  unfold ofReference at hread
  split at hread
  · next hmethod => exact destination?_of_ofListing (by simpa using hmethod) hread
  · next hmethod =>
      rw [destination?, if_neg (by simpa using hmethod)]
      split at hread
      · simp [unknown] at hread
      · next collection hsegments =>
          split at hread
          · rw [hsegments, route_of_ofChain hread]; rfl
          · simp [databaseRequired] at hread
      · next database collection hne hsegments =>
          cases collection with
          | nil => exact absurd rfl hne
          | cons first more => rw [hsegments, route_of_ofChain hread]; rfl

theorem destination?_of_leads (hleads : Leads segments method front)
    (hline : line.toList = front ++ '(' :: rest) (hread : read line current = .ok command) :
    ∃ names, segments.mapM Segment.name? = some names ∧
      destination? (selected? current) (names.map String.ofList) (Text.trim method) =
        some command.route := by
  obtain ⟨reference, hreference⟩ := exists_reference_of_read hread (by simp [hline])
  rw [read_of_reference? hreference] at hread
  have hdestination := destination?_of_ofReference hread
  rw [reference?_of_leads hleads hline] at hreference
  split at hreference
  · obtain ⟨names, hnames, rfl⟩ := Option.map_eq_some_iff.mp hreference
    exact ⟨names, hnames, hdestination⟩
  · cases hreference

/-- **Arguments never route.**  A line with a parenthesis that is understood has one that is
not part of a segment of its reference, and two such lines that are alike up to that
parenthesis go to the same place, whatever stands behind it. -/
theorem arguments_never_route :
    (∀ (line : String) (current : Option String) (command : Command),
      read line current = .ok command → '(' ∈ line.toList →
      ∃ segments method front rest, Leads segments method front ∧
        line.toList = front ++ '(' :: rest) ∧
    ∀ (first second : String) (current : Option String) (command other : Command)
      (segments : List Segment) (method front rest behind : List Char),
      Leads segments method front → first.toList = front ++ '(' :: rest →
      second.toList = front ++ '(' :: behind →
      read first current = .ok command → read second current = .ok other →
      command.route = other.route := by
  constructor
  · intro line current command hread hparen
    obtain ⟨reference, hreference⟩ := exists_reference_of_read hread hparen
    exact exists_leads_of_reference? hreference
  · intro first second current command other segments method front rest behind hleads hfirst
      hsecond hread hother
    obtain ⟨names, hnames, hroute⟩ := destination?_of_leads hleads hfirst hread
    obtain ⟨others, hothers, hsame⟩ := destination?_of_leads hleads hsecond hother
    rw [hnames, Option.some.injEq] at hothers
    rw [← hothers, hroute] at hsame
    exact Option.some.inj hsame

/-- A parenthesis in the name of the collection, and arguments that look like another
reference or hold a parenthesis of their own. -/
theorem arguments_never_route_quoted :
    let front := "db.shop.getCollection('a(b').find".toList
    let first := "db.shop.getCollection('a(b').find(\"db.x.getCollection('y').drop()\")"
    let second := "db.shop.getCollection('a(b').find(').x(').sort() ;"
    ∃ command other, Leads [.name "shop".toList, .call "'a(b'".toList] "find".toList front ∧
      (∃ rest, first.toList = front ++ '(' :: rest) ∧
      (∃ behind, second.toList = front ++ '(' :: behind) ∧
      read first none = .ok command ∧ read second none = .ok other ∧
      command.route = .chain ⟨"shop", "a(b"⟩ ∧ command.route = other.route ∧
      ∃ segments method front rest, Leads segments method front ∧
        second.toList = front ++ '(' :: rest := by
  intro front first second
  have hleads : Leads [.name "shop".toList, .call "'a(b'".toList] "find".toList front :=
    leads_of_call (List.all_eq_true.mp rfl) (Text.splitParen_of_closed rfl)
      (List.all_eq_true.mp rfl) (by decide)
  have hreferences : ∀ {line : String} {rest : List Char}, line.toList = front ++ '(' :: rest →
      reference? line = some { segments := ["shop", "a(b"], method := "find".toList,
                               chain := "find".toList ++ '(' :: bareEnd rest,
                               arguments := '(' :: bareEnd rest } :=
    fun hline => (reference?_of_leads hleads hline).trans rfl
  have hfirst : first.toList = front ++ '(' :: "\"db.x.getCollection('y').drop()\")".toList := by
    decide
  have hsecond : second.toList = front ++ '(' :: "').x(').sort() ;".toList := by decide
  have hquoted : Chain.read "find(\"db.x.getCollection('y').drop()\")".toList =
      .ok [⟨"find", [.string "db.x.getCollection('y').drop()"]⟩] :=
    Chain.readCalls_of_last rfl rfl
  have hchained : Chain.read "find(').x(').sort()".toList =
      .ok [⟨"find", [.string ").x("]⟩, ⟨"sort", []⟩] := by
    have hsort : Chain.readCalls "sort()".toList = .ok [⟨"sort", []⟩] :=
      Chain.readCalls_of_last rfl rfl
    exact (Chain.readCalls_of_point rfl rfl).trans (congrArg _ hsort)
  have hread : read first none = .ok (.chain ⟨"shop", "a(b"⟩
      [⟨"find", [.string "db.x.getCollection('y').drop()"]⟩]) :=
    (read_of_reference? (hreferences hfirst) none).trans
      (ofReference_of_qualified (by decide) rfl hquoted _)
  have hother : read second none = .ok (.chain ⟨"shop", "a(b"⟩
      [⟨"find", [.string ").x("]⟩, ⟨"sort", []⟩]) :=
    (read_of_reference? (hreferences hsecond) none).trans
      (ofReference_of_qualified (by decide) rfl hchained _)
  exact ⟨_, _, hleads, ⟨_, hfirst⟩, ⟨_, hsecond⟩, hread, hother, rfl,
    arguments_never_route.2 first second none _ _ _ _ front _ _ hleads hfirst hsecond hread hother,
    arguments_never_route.1 second none _ hother (by decide)⟩

end DocShell.Command
