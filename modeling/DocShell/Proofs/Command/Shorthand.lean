import DocShell.Proofs.Command.Reference
import DocShell.Proofs.Literal.Grammar

/-!
# Short and long forms of a command

`db.orders.find()` means `db.shop.orders.find()` while `shop` is the current database, and a
command that names its database means the same whichever database is current.

## Strategy

* A line that starts with `db.` is read by its reference alone (`read_of_reference?`), and
  the current database is looked at only behind it (`ofReference`).
* The blanks and semicolons at the end of a line stand behind the first parenthesis, where
  they touch neither segments nor method.  So both forms keep the same rest of the line
  (`bareEnd`), and the long one has the database as one more segment in front
  (`read?_database`).
-/

namespace DocShell.Command

open Reference (isName isNameChar)

variable {text rest : List Char} {line : String} {reference : Reference}

/-! ## The text of a line -/

/-- What the end of a line keeps without its blanks and semicolons. -/
def bareEnd (text : List Char) : List Char :=
  Text.trimEnd (Text.trimEndWhile (· == ';') (Text.trimEnd text))

theorem bare_append_paren {front : List Char}
    (hfront : ∀ rest, Text.trimStart (front ++ rest) = front ++ rest) (rest : List Char) :
    bare (front ++ '(' :: rest) = front ++ '(' :: bareEnd rest := by
  have hblank : Text.isBlank '(' = false := by decide
  simp only [bare, Text.trim, Text.trimEnd, hfront, bareEnd]
  rw [Text.trimEndWhile_append_cons hblank, Text.trimEndWhile_append_cons (by decide), hfront,
    Text.trimEndWhile_append_cons hblank]

/-- A line that starts with `db.` says neither `show` nor `use`. -/
theorem ofWords_of_db (current : Option String) (rest : List Char) :
    ofWords current ((Text.words ('d' :: 'b' :: '.' :: rest)).map String.ofList) = none := by
  obtain ⟨word, more, hwords⟩ : ∃ word more,
      Text.words ('d' :: 'b' :: '.' :: rest) = ('d' :: word) :: more := by
    rw [Text.words, Text.pieces_eq]
    exact ⟨_, _, rfl⟩
  have hne : String.ofList ('d' :: word) ≠ "show" ∧ String.ofList ('d' :: word) ≠ "use" := by
    constructor <;> intro heq <;> simpa using congrArg String.toList heq
  rw [hwords, List.map_cons]
  unfold ofWords
  split <;> simp_all

/-! ## The reference of a line -/

/-- The reference of a line that starts with `db.`. -/
def reference? (line : String) : Option Reference :=
  (Text.behind? ['d', 'b', '.'] (bare line.toList)).bind Reference.read?

theorem read_of_reference? (hreference : reference? line = some reference)
    (current : Option String) : read line current = ofReference (selected? current) reference := by
  obtain ⟨rest, hrest, hread⟩ := Option.bind_eq_some_iff.mp hreference
  have hbare : bare line.toList = ['d', 'b', '.'] ++ rest := Text.behind?_eq_some_iff.mp hrest
  refine read_of_reference rfl ?_ hrest hread
  rw [hbare]
  exact ofWords_of_db _ rest

theorem reference?_of_paren (line : String) (front rest : List Char)
    (hline : line.toList = ['d', 'b', '.'] ++ (front ++ '(' :: rest)) :
    reference? line = Reference.read? (front ++ '(' :: bareEnd rest) := by
  have hbare : bare line.toList = ['d', 'b', '.'] ++ (front ++ '(' :: bareEnd rest) := by
    rw [hline, ← List.append_assoc, ← List.append_assoc]
    exact bare_append_paren (fun rest => Text.trimStart_cons (by decide) _) rest
  rw [reference?, Text.behind?_eq_some_iff.mpr hbare]
  rfl

/-! ## Names of databases -/

theorem plain_of_isNameChar {c : Char} (hc : isNameChar c = true) :
    Reference.insideName c = true ∧ Text.isBlank c = false := by
  have hcases : Literal.isWordChar c = true ∨ c = '-' := by
    simp only [isNameChar, Literal.isWordChar, Bool.or_eq_true, beq_iff_eq] at hc ⊢
    rcases hc with ((hc | hc) | hc) | hc <;> simp [hc]
  have hne : c ≠ '.' ∧ c ≠ '(' := by
    constructor <;> rintro rfl <;> exact absurd hc (by decide)
  refine ⟨by simp [Reference.insideName, hne], ?_⟩
  rcases hcases with hword | rfl
  · exact Literal.isBlank_of_isWordChar hword
  · decide

theorem exists_cons_of_isName {name : List Char} (hname : isName name = true) :
    (∀ c ∈ name, isNameChar c = true) ∧ ∃ c more, name = c :: more := by
  simp only [isName, Bool.and_eq_true, List.all_eq_true, Bool.not_eq_true',
    List.isEmpty_eq_false_iff] at hname
  exact ⟨hname.2, List.exists_cons_of_ne_nil hname.1⟩

theorem trim_of_isName {name : List Char} (hname : isName name = true) :
    Text.trim name = name := by
  obtain ⟨hall, c, more, rfl⟩ := exists_cons_of_isName hname
  have hplain : ∀ d ∈ c :: more, Text.isBlank d = false :=
    fun d hd => (plain_of_isNameChar (hall d hd)).2
  rw [Text.trim, Text.trimStart_cons (hplain c List.mem_cons_self), Text.trimEnd,
    Text.trimEndWhile_of_last fun d hd => hplain d (List.mem_of_getLast? hd)]

/-- A database in front is the first segment, even if it is called `getCollection`. -/
theorem read?_database {database : List Char} (hname : isName database = true)
    (text : List Char) : Reference.read? (database ++ '.' :: text) =
      (Reference.read? text).map (Reference.addSegment database) := by
  obtain ⟨hall, -⟩ := exists_cons_of_isName hname
  have hinside : ∀ c ∈ database, Reference.insideName c = true :=
    fun c hc => (plain_of_isNameChar (hall c hc)).1
  rw [Reference.read?_name hinside, trim_of_isName hname, if_pos hname]

/-! ## Both forms -/

/-- The forms that a current database is put in front of. -/
def IsShort (reference : Reference) : Prop :=
  if reference.method = listMethod then reference.segments = []
  else reference.segments.length = 1

/-- The forms that name their database, among those that give a command. -/
def IsLong (reference : Reference) : Command → Prop
  | .chain _ _ => 2 ≤ reference.segments.length
  | .listCollections _ => reference.segments ≠ []
  | .showDatabases | .useDatabase _ => False

theorem selected?_of_isName {database : String} (hname : isName database.toList = true) :
    selected? (some database) = some database := by
  obtain ⟨-, c, more, hcons⟩ := exists_cons_of_isName hname
  have hne : database.isEmpty = false := by
    rw [Bool.eq_false_iff]
    intro hempty
    rw [String.isEmpty_iff] at hempty
    rw [hempty] at hcons
    cases hcons
  simp [selected?, trim_of_isName hname, hne]

/-- A short form asks the current database for what the long one asks that database for. -/
theorem ofReference_addSegment (hshort : IsShort reference) (database : String)
    (other : Option String) :
    ofReference other (Reference.addSegment database.toList reference) =
      ofReference (some database) reference := by
  unfold IsShort at hshort
  unfold ofReference Reference.addSegment
  rw [String.ofList_toList]
  by_cases hmethod : reference.method = listMethod
  · rw [if_pos hmethod] at hshort
    simp only [hmethod, beq_self_eq_true, if_true, ofListing, hshort]
  · rw [if_neg hmethod] at hshort
    obtain ⟨collection, hsegments⟩ := List.length_eq_one_iff.mp hshort
    simp only [beq_iff_eq, hmethod, if_false, hsegments]
    rfl

theorem exists_chain_of_ofChain {ns : Namespace} {command : Command}
    (hread : ofChain ns text = .ok command) :
    ∃ calls, Chain.read text = .ok calls ∧ command = .chain ns calls := by
  unfold ofChain at hread
  split at hread
  · next calls hcalls => exact ⟨calls, hcalls, (Except.ok.inj hread).symm⟩
  · simp at hread

/-- What names its database does not look at the current one. -/
theorem ofReference_of_isLong {current : Option String} {command : Command}
    (hread : ofReference current reference = .ok command) (hlong : IsLong reference command)
    (other : Option String) : ofReference other reference = .ok command := by
  unfold ofReference at hread ⊢
  by_cases hmethod : reference.method = listMethod
  · simp only [hmethod, beq_self_eq_true, if_true, ofListing] at hread ⊢
    cases hcall : checkEmptyCall reference.arguments with
    | error failure => simp [hcall] at hread
    | ok _ =>
        rw [hcall] at hread
        simp only at hread ⊢
        cases hsegments : reference.segments with
        | nil =>
            cases current with
            | none => simp [hsegments, databaseRequired] at hread
            | some db =>
                simp only [hsegments, Except.ok.injEq] at hread
                subst hread
                exact absurd hsegments hlong
        | cons database more =>
            cases more with
            | nil => simpa [hsegments] using hread
            | cons first more => simp [hsegments, unknown] at hread
  · simp only [beq_iff_eq, hmethod, if_false] at hread ⊢
    cases hsegments : reference.segments with
    | nil => simp [hsegments, unknown] at hread
    | cons database more =>
        cases more with
        | cons first more => simpa [hsegments] using hread
        | nil =>
            simp only [hsegments] at hread
            cases current with
            | none => simp [databaseRequired] at hread
            | some db =>
                obtain ⟨calls, -, rfl⟩ := exists_chain_of_ofChain hread
                simp [IsLong, hsegments] at hlong

/-- **The short form means the long one.**  A reference that needs a current database means
the same as with that database written in front of it and none current: the outcome is the
same command or the same failure.  And a line that names its database means the same
whichever database is current. -/
theorem shorthand_means_qualified :
    (∀ (database text : String) (reference : Reference), isName database.toList = true →
      Reference.read? text.toList = some reference → IsShort reference →
      read ("db." ++ text) (some database) =
        read ("db." ++ database ++ "." ++ text) none) ∧
    ∀ (line : String) (current : Option String) (command : Command) (reference : Reference),
      read line current = .ok command → reference? line = some reference →
      IsLong reference command → ∀ other, read line other = read line current := by
  constructor
  · intro database text reference hname hread hshort
    obtain ⟨front, method, arguments, htext, hother⟩ := Reference.exists_front_of_read? hread
    -- Both lines keep the text up to the parenthesis of the first method, and lose the same
    -- end behind it.
    let kept := front ++ (method ++ '(' :: bareEnd arguments)
    have hshortLine : reference? ("db." ++ text) = Reference.read? kept := by
      have hline := reference?_of_paren ("db." ++ text) (front ++ method) arguments
        (by simp [htext])
      rwa [List.append_assoc] at hline
    have hlongLine : reference? ("db." ++ database ++ "." ++ text) =
        (Reference.read? kept).map (Reference.addSegment database.toList) := by
      rw [← read?_database hname]
      have hline := reference?_of_paren ("db." ++ database ++ "." ++ text)
        (database.toList ++ '.' :: (front ++ method)) arguments (by simp [htext])
      rwa [List.append_assoc, List.cons_append, List.append_assoc] at hline
    rw [hother (bareEnd arguments)] at hshortLine hlongLine
    let bared : Reference :=
      { reference with chain := method ++ '(' :: bareEnd arguments,
                       arguments := '(' :: bareEnd arguments }
    have hbared : IsShort bared := hshort
    rw [read_of_reference? hshortLine, read_of_reference? hlongLine, selected?_of_isName hname]
    exact (ofReference_addSegment hbared database none).symm
  · intro line current command reference hread hreference hlong other
    rw [read_of_reference? hreference] at hread ⊢
    rw [read_of_reference? hreference, hread]
    exact ofReference_of_isLong hread hlong _

/-- A database called `getCollection`, with a collection reached by `getCollection`; and a
listing that names its database while another one is current. -/
theorem shorthand_of_getCollection :
    read "db.getCollection('my items').find() ;" (some "getCollection") =
        read "db.getCollection.getCollection('my items').find() ;" none ∧
      read "db.shop.getCollectionNames();" (some "stock") =
        read "db.shop.getCollectionNames();" none := by
  have hshort : Reference.read? "getCollection('my items').find() ;".toList = some
      { segments := ["my items"], method := "find".toList, chain := "find() ;".toList,
        arguments := "() ;".toList } := by
    have htrim : Text.trimStart "getCollection('my items').find() ;".toList =
        "getCollection('my items').find() ;".toList := by decide
    have htake : Reference.takeSegment? "getCollection('my items').find() ;".toList =
        some ("my items".toList, "find() ;".toList) := by decide
    rw [Reference.read?, htrim, Reference.readFrom?_of_segment rfl htake,
      Reference.readFrom?_of_method rfl]
    rfl
  have hlong : reference? "db.shop.getCollectionNames();" = some
      { segments := ["shop"], method := listMethod, chain := "getCollectionNames()".toList,
        arguments := "()".toList } := by
    have hrest : Text.behind? ['d', 'b', '.'] (bare "db.shop.getCollectionNames();".toList) =
        some "shop.getCollectionNames()".toList := by decide
    rw [reference?, hrest, Option.bind_some, Reference.read?,
      Reference.readFrom?_of_segment rfl rfl, Reference.readFrom?_of_method rfl]
    rfl
  have hread : read "db.shop.getCollectionNames();" none = .ok (.listCollections "shop") :=
    (read_of_reference? hlong none).trans rfl
  have hforms := shorthand_means_qualified.1 "getCollection" "getCollection('my items').find() ;"
    _ (by decide) hshort (by unfold IsShort; decide)
  have hany := shorthand_means_qualified.2 "db.shop.getCollectionNames();" none _ _ hread hlong
    (by simp [IsLong]) (some "stock")
  have hshortText : "db." ++ "getCollection('my items').find() ;" =
      "db.getCollection('my items').find() ;" := by decide
  have hlongText : "db." ++ "getCollection" ++ "." ++ "getCollection('my items').find() ;" =
      "db.getCollection.getCollection('my items').find() ;" := by decide
  rw [hshortText, hlongText] at hforms
  exact ⟨hforms, hany⟩

end DocShell.Command
