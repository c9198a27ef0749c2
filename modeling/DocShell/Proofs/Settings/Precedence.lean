import DocShell.Launch

/-!
# Which address counts

Defaults, settings file, environment and command line each override what comes before them.
An address in the environment hides the one in the file (`environment_hides_file`).  One on the
command line hides both, but only if the address that they leave has a scheme that is known: it
is checked before the command line overrides it (`command_line_hides`, `hidden_address_counts`).

## Strategy

Two runs that say the same but for the address are followed side by side, and their settings
stay the same up to the address, `withUri u`.

* Reading a file gives such settings (`withUri_ofText`), since the address is read as any other
  member of its section and a string is never refused.
* The variables are applied one by one, and only the first one touches the address
  (`withUri_applyEnvironment`).
* What the command line leaves does not depend on the address in front of it, if it has one of
  its own (`applyCommandLine_congr`).  So only the check in between sees the address
  (`check_congr`).
-/

namespace DocShell

/-! ## Files that say the same -/

namespace Toml

/-- What a file says about the connection; nothing, if it has no such section. -/
def connection (document : Fields Toml) : Toml :=
  (document.get? "connection").getD (.table .header [])

/-- Nothing is said, or it is a string. -/
def IsTextOrAbsent (value : Option Toml) : Prop :=
  ∀ found ∈ value, ∃ s, found = .string s

/-- The two sections are the same but for the address, which may be any string. -/
inductive SameSection : Toml → Toml → Prop
  | same (value : Toml) : SameSection value value
  | table {first second : Fields Toml} (origin other : Origin)
      (hfirst : IsTextOrAbsent (first.get? "uri")) (hsecond : IsTextOrAbsent (second.get? "uri"))
      (hrest : first.erase "uri" = second.erase "uri") :
      SameSection (.table origin first) (.table other second)
  | array (first second : String) (items : List Toml) :
      SameSection (.array (.string first :: items)) (.array (.string second :: items))

/-- The two files are the same but for the address of the server. -/
structure SameButUri (first second : Fields Toml) : Prop where
  rest : first.erase "connection" = second.erase "connection"
  connection : SameSection (connection first) (connection second)

end Toml

/-- The connection with another address. -/
def ConnectionSettings.withUri (u : String) (connection : ConnectionSettings) :
    ConnectionSettings :=
  { connection with uri := u }

namespace Settings

variable {s t : Settings} {environment environment' : Environment} {u : String}

/-- The settings with another address. -/
def withUri (u : String) (settings : Settings) : Settings :=
  { settings with connection := settings.connection.withUri u }

/-- The two texts are the same, or both say the same but for the address.  A text that cannot be
understood is the same as itself only, since the report of what is wrong with it may depend on
all of it; that the run fails is said by `Launch.prepare_of_bad_text`. -/
def SameText (first second : String) : Prop :=
  first = second ∨ ∃ document other, Toml.read? first.toList = some document ∧
    Toml.read? second.toList = some other ∧ Toml.SameButUri document other

/-- Both files are missing, or neither can be read, or their texts are the same but for the
address. -/
inductive SameFile : Option (Option String) → Option (Option String) → Prop
  | missing : SameFile none none
  | unreadable : SameFile (some none) (some none)
  | text {first second : String} (hsame : SameText first second) :
      SameFile (some (some first)) (some (some second))

theorem sameFile_refl (file : Option (Option String)) : SameFile file file := by
  cases file with
  | none => exact .missing
  | some content =>
      cases content with
      | none => exact .unreadable
      | some text => exact .text (Or.inl rfl)

/-- What file and environment say, before it is checked. -/
def merge (files : Files) (usual : String) (environment : Environment) (path : Option String) :
    Except SettingsFailure Settings :=
  ofFile files usual path >>= applyEnvironment environment

theorem load_eq (files : Files) (usual : String) (environment : Environment)
    (path : Option String) :
    load files usual environment path =
      merge files usual environment path >>= fun settings =>
        settings.check.map fun _ => settings := by
  rw [load, merge]
  cases ofFile files usual path with
  | error failure => rfl
  | ok fromFile =>
      simp only [bind, Except.bind]
      cases applyEnvironment environment fromFile <;> rfl

/-- What goes on from two outcomes without looking at the address goes on alike. -/
theorem bind_congr_of_map {α β γ : Type} {f : α → β} {first second : Except SettingsFailure α}
    (hmap : f <$> first = f <$> second) {next : α → Except SettingsFailure γ}
    (hidden : β → Except SettingsFailure γ) (hnext : ∀ a, next a = hidden (f a)) :
    first >>= next = second >>= next := by
  have hbind : ∀ outcome : Except SettingsFailure α, outcome >>= next =
      (f <$> outcome) >>= hidden := by
    intro outcome
    rw [bind_map_left]
    exact bind_congr hnext
  rw [hbind, hbind, hmap]

/-- Outcomes that are the same but for what is hidden are both failures, or neither is. -/
theorem outcomes_of_map_eq {α β : Type} {f : α → β} {first second : Except SettingsFailure α}
    (hmap : f <$> first = f <$> second) :
    (∃ failure, first = .error failure ∧ second = .error failure) ∨
      ∃ a b, first = .ok a ∧ second = .ok b ∧ f a = f b := by
  cases first <;> cases second <;> simp_all [Functor.map, Except.map]

/-! ## The file -/

theorem readField_congr {α : Type} {first second : Fields Toml} {key name : String}
    (hrest : first.erase key = second.erase key) (hname : key ≠ name) (default : α)
    (read : Reading α) : readField first name default read = readField second name default read := by
  have hget : first.get? name = second.get? name := by
    have herased := congrArg (Fields.get? · name) hrest
    simpa only [Fields.get?_erase, if_neg hname] using herased
  rw [readField, readField, hget]

/-- A name that has a meaning is not looked at when a table is checked. -/
theorem readEntries_bind_congr {β : Type} {first second : Fields Toml} {names : List String}
    {key : String} (hrest : first.erase key = second.erase key) (hkey : key ∈ names)
    {f : Fields Toml → Except SettingsFailure β} (hf : f first = f second) :
    (readEntries names first >>= f) = readEntries names second >>= f := by
  have hunknown : ∀ entries : Fields Toml, entries.filter (fun entry => !names.contains entry.1) =
      (entries.erase key).filter fun entry => !names.contains entry.1 := by
    intro entries
    rw [Fields.erase, List.filter_filter]
    refine List.filter_congr fun entry _ => ?_
    by_cases hentry : entry.1 = key
    · simp [hentry, hkey]
    · simp [hentry]
  rw [readEntries, readEntries, hunknown first, hunknown second, hrest]
  split
  · exact hf
  · rfl

/-- A string is never refused as an address. -/
theorem readField_uri {fields : Fields Toml} (huri : Toml.IsTextOrAbsent (fields.get? "uri"))
    (default : String) : ∃ uri, readField fields "uri" default readString = pure uri := by
  rw [readField]
  cases hget : fields.get? "uri" with
  | none => exact ⟨default, rfl⟩
  | some value =>
      obtain ⟨uri, rfl⟩ := huri value hget
      exact ⟨uri, rfl⟩

/-- The names of the section `connection`, in the order of an array. -/
def connectionNames : List String :=
  ["uri", "timeout", "max_pool_size", "min_pool_size", "idle_timeout", "app_name"]

/-- The members of the section `connection`. -/
def readMembers (fields : Fields Toml) : Except SettingsFailure ConnectionSettings := do
  let default : ConnectionSettings := {}
  return {
    uri := ← readField fields "uri" default.uri readString
    timeout := ← readField fields "timeout" default.timeout (readNat (Nat.pow 2 64))
    maxPoolSize := ← readField fields "max_pool_size" default.maxPoolSize (readNat (Nat.pow 2 32))
    minPoolSize := ← readField fields "min_pool_size" default.minPoolSize (readNat (Nat.pow 2 32))
    idleTimeout := ← readField fields "idle_timeout" default.idleTimeout (readNat (Nat.pow 2 64))
    appName := ← readField fields "app_name" default.appName readString }

theorem readConnection_eq (value : Toml) :
    readConnection value = readSection connectionNames value >>= readMembers :=
  rfl

theorem withUri_readMembers {first second : Fields Toml}
    (hfirst : Toml.IsTextOrAbsent (first.get? "uri"))
    (hsecond : Toml.IsTextOrAbsent (second.get? "uri"))
    (hrest : first.erase "uri" = second.erase "uri") :
    ConnectionSettings.withUri u <$> readMembers first =
      ConnectionSettings.withUri u <$> readMembers second := by
  obtain ⟨uri, huri⟩ := readField_uri hfirst ({} : ConnectionSettings).uri
  obtain ⟨other, hother⟩ := readField_uri hsecond ({} : ConnectionSettings).uri
  simp only [readMembers, huri, hother, pure_bind, map_bind, map_pure]
  simp (disch := decide) only [readField_congr hrest]
  rfl

theorem withUri_readConnection {first second : Toml} (hsame : Toml.SameSection first second) :
    ConnectionSettings.withUri u <$> readConnection first =
      ConnectionSettings.withUri u <$> readConnection second := by
  cases hsame with
  | same => rfl
  | array first second items =>
      -- The address is the first item, whatever it is, and the others keep their places.
      have hmembers : ∀ uri : String, readConnection (.array (.string uri :: items)) =
          readMembers (("uri", .string uri) :: connectionNames.tail.zip items) := fun _ => rfl
      have huri : ∀ uri : String, Toml.IsTextOrAbsent
          (Fields.get? (("uri", .string uri) :: connectionNames.tail.zip items) "uri") := by
        intro uri found hfound
        exact ⟨uri, (Option.some.inj hfound).symm⟩
      rw [hmembers, hmembers]
      exact withUri_readMembers (huri first) (huri second) rfl
  | table _ _ hfirst hsecond hrest =>
      simp only [readConnection_eq, readSection, map_bind]
      exact readEntries_bind_congr hrest (by decide) (withUri_readMembers hfirst hsecond hrest)

theorem readField_connection (document : Fields Toml) :
    readField document "connection" {} readConnection =
      readConnection (Toml.connection document) := by
  rw [readField, Toml.connection]
  cases document.get? "connection" <;> rfl

theorem withUri_readFields {first second : Fields Toml} (hsame : Toml.SameButUri first second) :
    withUri u <$> readFields first = withUri u <$> readFields second := by
  simp only [readFields, map_bind, map_pure]
  refine readEntries_bind_congr hsame.rest (by decide) ?_
  -- The other sections are read behind the connection, from what is the same in both files.
  simp (disch := decide) only [readField_congr hsame.rest, readField_connection]
  exact bind_congr_of_map (withUri_readConnection hsame.connection) (fun connection => do
    let console ← readField second "console" {} readConsole
    let display ← readField second "display" {} readDisplay
    let logging ← readField second "logging" {} readLogging
    return { connection, console, display, logging }) fun _ => rfl

theorem withUri_ofText {first second : String} (hsame : SameText first second) :
    withUri u <$> ofText first = withUri u <$> ofText second := by
  rcases hsame with rfl | ⟨document, other, hfirst, hsecond, hsame⟩
  · rfl
  · rw [ofText, ofText, hfirst, hsecond]
    exact withUri_readFields hsame

theorem ofFile_eq (files : Files) (usual : String) (path : Option String) :
    ofFile files usual path =
      match files (path.getD usual) with
      | some (some text) => ofText text
      | some none => .error (.fileNotFound (path.getD usual))
      | none => path.elim (.ok {}) fun name => .error (.fileNotFound name) := by
  cases path with
  | none =>
      rw [ofFile, ofPath, Option.getD_none]
      rcases files usual with _ | _ | text <;> rfl
  | some name =>
      rw [ofFile, ofPath, Option.getD_some]
      rcases files name with _ | _ | text <;> rfl

theorem withUri_ofFile {files files' : Files} {usual : String} {path : Option String}
    (hfile : SameFile (files (path.getD usual)) (files' (path.getD usual))) :
    withUri u <$> ofFile files usual path = withUri u <$> ofFile files' usual path := by
  rw [ofFile_eq, ofFile_eq]
  generalize files (path.getD usual) = first at hfile ⊢
  generalize files' (path.getD usual) = second at hfile ⊢
  cases hfile with
  | missing | unreadable => rfl
  | text hsame => exact withUri_ofText hsame

/-! ## The environment -/

/-- What the variables other than the one for the address say. -/
def applyOthers (environment : Environment) (settings : Settings) :
    Except SettingsFailure Settings :=
  applyReadOnly environment (applyDatabase environment settings) >>= applyLevel environment

theorem applyEnvironment_eq (environment : Environment) (settings : Settings) :
    applyEnvironment environment settings =
      applyOthers environment (applyUri environment settings) := by
  rw [applyEnvironment, applyOthers]
  cases applyReadOnly environment (applyDatabase environment (applyUri environment settings)) <;>
    rfl

theorem withUri_applyEnvironment (environment : Environment) (settings : Settings) :
    withUri u <$> applyEnvironment environment settings =
      applyOthers environment (settings.withUri u) := by
  have huri : (applyUri environment settings).withUri u = settings.withUri u := by
    unfold applyUri
    split <;> rfl
  have hdatabase (s : Settings) :
      (applyDatabase environment s).withUri u = applyDatabase environment (s.withUri u) := by
    unfold applyDatabase
    split <;> rfl
  have hreadOnly (s : Settings) :
      withUri u <$> applyReadOnly environment s = applyReadOnly environment (s.withUri u) := by
    unfold applyReadOnly
    split
    · next value _ => cases readFlag "MONGO_CONSOLE_READ_ONLY" value <;> rfl
    · rfl
  have hlevel (s : Settings) :
      withUri u <$> applyLevel environment s = applyLevel environment (s.withUri u) := by
    unfold applyLevel
    split
    · next value _ => cases LogLevel.read value <;> rfl
    · rfl
  rw [applyEnvironment_eq, applyOthers, map_bind, applyOthers, ← huri, ← hdatabase, ← hreadOnly,
    bind_map_left]
  exact bind_congr hlevel

theorem applyOthers_congr
    (hsame : ∀ name, name ≠ "MONGO_CONSOLE_URI" → environment name = environment' name)
    (settings : Settings) : applyOthers environment settings = applyOthers environment' settings := by
  have hdatabase : applyDatabase environment = applyDatabase environment' := by
    funext s
    rw [applyDatabase, applyDatabase, hsame _ (by decide)]
  have hreadOnly : applyReadOnly environment = applyReadOnly environment' := by
    funext s
    rw [applyReadOnly, applyReadOnly, hsame _ (by decide)]
  have hlevel : applyLevel environment = applyLevel environment' := by
    funext s
    rw [applyLevel, applyLevel, hsame _ (by decide)]
  rw [applyOthers, applyOthers, hdatabase, hreadOnly, hlevel]

/-- What file and environment say is the same but for the address, if they are. -/
theorem withUri_merge {files files' : Files} {usual : String} {path : Option String}
    (hfile : SameFile (files (path.getD usual)) (files' (path.getD usual)))
    (hsame : ∀ name, name ≠ "MONGO_CONSOLE_URI" → environment name = environment' name) :
    withUri u <$> merge files usual environment path =
      withUri u <$> merge files' usual environment' path := by
  rw [merge, merge, map_bind, map_bind]
  have hnext (s : Settings) : withUri u <$> applyEnvironment environment s =
      withUri u <$> applyEnvironment environment' s := by
    rw [withUri_applyEnvironment, withUri_applyEnvironment, applyOthers_congr hsame]
  rw [bind_congr hnext]
  exact bind_congr_of_map (withUri_ofFile hfile) (applyOthers environment')
    (withUri_applyEnvironment environment')

/-- An address in the environment hides the one in the file, whatever that is. -/
theorem environment_hides_file {files files' : Files} {usual : String} {path : Option String}
    (huri : environment "MONGO_CONSOLE_URI" = some u)
    (hfile : SameFile (files (path.getD usual)) (files' (path.getD usual))) :
    load files usual environment path = load files' usual environment path := by
  have hhidden (settings : Settings) :
      applyEnvironment environment settings = applyOthers environment (settings.withUri u) := by
    rw [applyEnvironment_eq, applyUri, huri]
    rfl
  have hmerge : merge files usual environment path = merge files' usual environment path :=
    bind_congr_of_map (withUri_ofFile hfile) (applyOthers environment) hhidden
  rw [load_eq, load_eq, hmerge]

/-! ## The check and the command line -/

/-- With addresses that are both accepted, the check looks at the other settings only. -/
theorem check_congr (hsame : s.withUri u = t.withUri u)
    (hs : checkUri s.connection.uri = .ok ()) (ht : checkUri t.connection.uri = .ok ()) :
    s.check = t.check := by
  have haccepted {settings : Settings} (h : checkUri settings.connection.uri = .ok ()) :
      settings.check = (settings.withUri "mongodb://").check := by
    have hscheme : checkUri "mongodb://" = .ok () := by rfl
    simp only [check, withUri, ConnectionSettings.withUri, h, hscheme]
    rfl
  rw [haccepted hs, haccepted ht]
  exact congrArg (fun settings => (settings.withUri "mongodb://").check) hsame

theorem applyCommandLine_congr {line : CommandLine} {uri : String} (huri : line.uri = some uri)
    (hsame : s.withUri u = t.withUri u) : applyCommandLine line s = applyCommandLine line t := by
  have hhidden (s : Settings) : applyCommandLine line s = applyCommandLine line (s.withUri u) := by
    simp only [applyCommandLine, huri, withUri, ConnectionSettings.withUri, Option.getD_some]
  rw [hhidden s, hhidden t, hsame]

end Settings

namespace Launch

open Settings (SameFile merge checkUri)

/-- What file and environment say is checked, and checked again behind the command line. -/
theorem prepare_eq (files : Files) (usual : String) (environment : Environment)
    (line : CommandLine) :
    prepare files usual environment line = do
      let settings ← merge files usual environment line.configFile
      settings.check
      let settings ← settings.applyCommandLine line
      settings.check
      return { line, settings } := by
  rw [prepare, Settings.load_eq]
  cases merge files usual environment line.configFile with
  | error failure => rfl
  | ok merged =>
      simp only [bind, Except.bind]
      cases merged.check with
      | error failure => rfl
      | ok _ =>
          simp only [Except.map]
          cases merged.applyCommandLine line with
          | error failure => rfl
          | ok settings =>
              simp only
              cases settings.check <;> rfl

/-- A text that cannot be understood makes the run fail, whatever address is in it or counts in its
place. -/
theorem prepare_of_bad_text {files : Files} {usual : String} {environment : Environment}
    {line : CommandLine} {text : String}
    (hfile : files (line.configFile.getD usual) = some (some text))
    (hbad : Toml.read? text.toList = none) :
    ∃ message, prepare files usual environment line = .error (.invalidFormat message) := by
  have hmerge : merge files usual environment line.configFile =
      .error (.invalidFormat "bad syntax") := by
    rw [merge, Settings.ofFile_eq, hfile]
    simp only [Settings.ofText, hbad]
    rfl
  rw [prepare_eq, hmerge]
  exact ⟨_, rfl⟩

/-- The address that file and environment give is of a scheme that is known, if they can be
read. -/
def Accepted (files : Files) (usual : String) (environment : Environment) (path : Option String) :
    Prop :=
  ∀ settings, merge files usual environment path = .ok settings →
    checkUri settings.connection.uri = .ok ()

/-- **The command line hides the address of file and environment,** if it is one that could be
used: two runs with the same command line, with an address on it, have the same outcome, whatever
the addresses are that it overrides.  But a run whose overridden address has no scheme that is
known fails because of it. -/
theorem command_line_hides (files files' : Files) (usual : String)
    (environment environment' : Environment) (line : CommandLine) (uri : String)
    (huri : line.uri = some uri)
    (hfile : SameFile (files (line.configFile.getD usual)) (files' (line.configFile.getD usual)))
    (hsame : ∀ name, name ≠ "MONGO_CONSOLE_URI" → environment name = environment' name) :
    (Accepted files usual environment line.configFile →
      Accepted files' usual environment' line.configFile →
      prepare files usual environment line = prepare files' usual environment' line) ∧
    ∀ settings failure, merge files usual environment line.configFile = .ok settings →
      checkUri settings.connection.uri = .error failure →
      prepare files usual environment line = .error failure := by
  constructor
  · intro haccepted hother
    rw [prepare_eq, prepare_eq]
    rcases Settings.outcomes_of_map_eq (Settings.withUri_merge (u := uri) hfile hsame) with
      ⟨failure, hfirst, hsecond⟩ | ⟨s, t, hfirst, hsecond, halike⟩
    · rw [hfirst, hsecond]
    · -- Behind the first check both runs have the address of the command line.
      have hcheck : s.check = t.check :=
        Settings.check_congr halike (haccepted s hfirst) (hother t hsecond)
      have hline := Settings.applyCommandLine_congr huri halike
      simp only [hfirst, hsecond]
      change (s.check >>= fun _ => _) = (t.check >>= fun _ => _)
      rw [hcheck, hline]
  · intro settings failure hmerge hrefused
    have hcheck : settings.check = .error failure := by
      simp only [Settings.check, hrefused]
    rw [prepare_eq, hmerge]
    change (settings.check >>= fun _ => _) = _
    rw [hcheck]
    rfl

/-- The environment that says nothing but an address. -/
def addressOnly (uri : String) : Environment := fun name =>
  if name = "MONGO_CONSOLE_URI" then some uri else none

/-- Every file holds the text. -/
def everyFile (text : String) : Files := fun _ => some (some text)

/-- Two files and the environment give three addresses, one of them without a scheme. -/
theorem command_line_hides_three :
    prepare (everyFile "connection.uri = 'mongodb://a'") "" (fun _ => none)
        { uri := some "mongodb://d" } =
      prepare (everyFile "connection.uri = 'b'") "" (addressOnly "mongodb+srv://c")
        { uri := some "mongodb://d" } ∧
    prepare (everyFile "connection.uri = 'b'") "" (fun _ => none)
        { uri := some "mongodb://d" } = .error (.invalidValue "connection.uri" "b") := by
  have hfiles : SameFile (some (some "connection.uri = 'mongodb://a'"))
      (some (some "connection.uri = 'b'")) := by
    have hfirst : Toml.read? "connection.uri = 'mongodb://a'".toList =
        some [("connection", .table .dotted [("uri", .string "mongodb://a")])] := by rfl
    have hsecond : Toml.read? "connection.uri = 'b'".toList =
        some [("connection", .table .dotted [("uri", .string "b")])] := by rfl
    refine .text (Or.inr ⟨_, _, hfirst, hsecond, rfl, ?_⟩)
    exact .table _ _ (fun _ hfound => ⟨_, (Option.some.inj hfound).symm⟩)
      (fun _ hfound => ⟨_, (Option.some.inj hfound).symm⟩) rfl
  have hsame : ∀ name, name ≠ "MONGO_CONSOLE_URI" → none = addressOnly "mongodb+srv://c" name :=
    fun name hname => (if_neg hname).symm
  have hfirst : merge (everyFile "connection.uri = 'mongodb://a'") "" (fun _ => none) none =
      .ok (({} : Settings).withUri "mongodb://a") := by rfl
  have hsecond : merge (everyFile "connection.uri = 'b'") "" (addressOnly "mongodb+srv://c") none =
      .ok (({} : Settings).withUri "mongodb+srv://c") := by rfl
  have hrefused : merge (everyFile "connection.uri = 'b'") "" (fun _ => none) none =
      .ok (({} : Settings).withUri "b") := by rfl
  constructor
  · refine (command_line_hides _ _ "" _ _ { uri := some "mongodb://d" } _ rfl hfiles hsame).1 ?_ ?_
    · intro settings hmerge
      obtain rfl := Except.ok.inj (hfirst.symm.trans hmerge)
      rfl
    · intro settings hmerge
      obtain rfl := Except.ok.inj (hsecond.symm.trans hmerge)
      rfl
  · exact (command_line_hides _ _ "" _ _ { uri := some "mongodb://d" } _ rfl
      (Settings.sameFile_refl _) fun _ _ => rfl).2 _ _ hrefused rfl

/-- An address without a scheme in the environment makes the run fail, although the one on the
command line counts. -/
theorem hidden_address_counts :
    (∀ name, name ≠ "MONGO_CONSOLE_URI" →
      addressOnly "localhost:27017" name = addressOnly "mongodb://localhost:27017" name) ∧
    prepare (fun _ => none) "" (addressOnly "localhost:27017")
        { uri := some "mongodb://db.internal:27017" } =
      .error (.invalidValue "connection.uri" "localhost:27017") ∧
    prepare (fun _ => none) "" (addressOnly "mongodb://localhost:27017")
        { uri := some "mongodb://db.internal:27017" } =
      .ok
        { line := { uri := some "mongodb://db.internal:27017" }
          settings := ({} : Settings).withUri "mongodb://db.internal:27017" } := by
  refine ⟨fun name hname => ?_, by rfl, by rfl⟩
  rw [addressOnly, addressOnly, if_neg hname, if_neg hname]

end Launch

end DocShell
