import DatasetCache.Proofs.Config.Files
import DatasetCache.Proofs.Toml.Drafts

/-!
# Configurations that read back

The document of a configuration is read back into the table it was written from, and the
table into the configuration, whatever texts the configuration holds.  Only validation can
come between a configuration and its document, or its file.
-/

namespace DatasetCache.Config

open Toml

/-! ## The document -/

def argumentsTable (arguments : Arguments) : Toml.Value :=
  .table .header (strings arguments.entries)

def staticTables (statics : List (String × Arguments)) : Entries :=
  statics.map fun static => (static.1, argumentsTable static.2)

/-- The table of the static datasets, mentioned by the headers of the tables in it. -/
def staticsSection (tables : Entries) : Entries :=
  if tables.isEmpty then [] else [("static_datasets", .table .path tables)]

def preamble (config : Config) : Entries :=
  [("namespace", .string config.realm), ("runtime_arguments", argumentsTable config.runtime)]

/-- What the document of a configuration describes. -/
def tables (config : Config) : Entries :=
  config.preamble ++
    if config.statics.isEmpty then [("static_datasets", .table .header [])]
    else staticsSection (staticTables config.statics.entries)

/-! ## Reading the document -/

section Statics

variable {before : Entries} (absent : before.get? "static_datasets" = none)

include absent

theorem takes_static {done : Entries} {name : String} (fresh : done.get? name = none)
    (arguments : Arguments) (header : List String) :
    Draft.Takes ⟨before ++ staticsSection done, header⟩
      (writeHeader ["static_datasets", name] ++ writeArguments arguments)
      ⟨before ++ staticsSection (done ++ [(name, argumentsTable arguments)]),
        ["static_datasets", name]⟩ := by
  have opens : Draft.openTable? ⟨before ++ staticsSection done, header⟩ ["static_datasets"] name =
      some ⟨before ++ [("static_datasets", .table .path (done ++ [(name, .table .header [])]))],
        ["static_datasets", name]⟩ := by
    cases done with
    | nil =>
        have made := Entries.alter?_absent absent
        simp [staticsSection, Draft.openTable?, Entries.openTable?, made, Entries.get?]
    | cons table done =>
        have inside := Entries.leadsTo_nil.last absent .path (by decide)
        exact inside.openTable? fresh header
  have leads := (Entries.leadsTo_nil.last fresh .header (by decide)).last absent .path (by decide)
  have fills := Draft.takes_lines leads arguments.nodup_keys [] fun _ _ => rfl
  have whole := (Draft.Takes.header ["static_datasets"] (by decide) opens).append fills
  simpa [staticsSection, writeArguments, argumentsTable] using whole

theorem takes_statics {statics : List (String × Arguments)}
    (distinct : (statics.map (·.1)).Nodup) {done : Entries}
    (fresh : ∀ static ∈ statics, done.get? static.1 = none) (header : List String) :
    ∃ last, Draft.Takes ⟨before ++ staticsSection done, header⟩
      (statics.flatMap fun static =>
        writeHeader ["static_datasets", static.1] ++ writeArguments static.2)
      ⟨before ++ staticsSection (done ++ staticTables statics), last⟩ := by
  induction statics generalizing done header with
  | nil => exact ⟨header, by simpa [staticTables] using Draft.Takes.nil _⟩
  | cons static statics ih =>
      obtain ⟨other, distinct⟩ := List.nodup_cons.1 distinct
      have first := takes_static absent (fresh static List.mem_cons_self) static.2 header
      have later : ∀ next ∈ statics,
          Entries.get? (done ++ [(static.1, argumentsTable static.2)]) next.1 = none := by
        intro next member
        have different : next.1 ≠ static.1 := fun same =>
          other (List.mem_map.2 ⟨next, member, same⟩)
        rw [Entries.get?_append_singleton_of_ne different]
        exact fresh next (List.mem_cons_of_mem _ member)
      obtain ⟨last, remaining⟩ := ih distinct later ["static_datasets", static.1]
      exact ⟨last, by simpa [staticTables] using first.append remaining⟩

end Statics

theorem takes_preamble (config : Config) :
    Draft.Takes {} (writeEntry "namespace" config.realm ++ writeHeader ["runtime_arguments"] ++
      writeArguments config.runtime) ⟨config.preamble, ["runtime_arguments"]⟩ := by
  have absent : Entries.get? [("namespace", .string config.realm)] "runtime_arguments" = none := rfl
  have defines : Draft.define? {} [] "namespace" (.string config.realm) =
      some ⟨[("namespace", .string config.realm)], []⟩ :=
    Entries.leadsTo_nil.define? rfl _
  have opens := Entries.leadsTo_nil.openTable? absent []
  have leads := Entries.leadsTo_nil.last absent .header (by decide)
  have fills := Draft.takes_lines leads config.runtime.nodup_keys [] fun _ _ => rfl
  exact ((Draft.Takes.entry defines).append (Draft.Takes.header [] (by decide) opens)).append fills

theorem takes_tomlChars (config : Config) :
    ∃ last, Draft.Takes {} config.tomlChars ⟨config.tables, last⟩ := by
  have absent : config.preamble.get? "static_datasets" = none := rfl
  rw [tomlChars, tables]
  split
  next =>
    have opens := Entries.leadsTo_nil.openTable? absent ["runtime_arguments"]
    exact ⟨_, (takes_preamble config).append (Draft.Takes.header [] (by decide) opens)⟩
  next =>
    have fresh : ∀ static ∈ config.statics.entries, Entries.get? [] static.1 = none :=
      fun _ _ => rfl
    obtain ⟨last, remaining⟩ :=
      takes_statics absent config.statics.nodup_keys fresh ["runtime_arguments"]
    exact ⟨last, (takes_preamble config).append remaining⟩

theorem tomlChars_unmarked (config : Config) : config.tomlChars.head? ≠ some '\uFEFF' := by
  obtain ⟨c, more, written, starts⟩ := writeKey_cons "namespace"
  have other := starts.ne (d := '\uFEFF') (by decide)
  simpa [tomlChars, writeEntry, written] using other

theorem document?_toToml (config : Config) : document? config.toToml = some config.tables := by
  obtain ⟨last, takes⟩ := takes_tomlChars config
  exact takes.document? config.tomlChars_unmarked

/-! ## Reading the configuration -/

theorem collect_strings (lines : List (String × String)) (arguments : Arguments) :
    (strings lines).foldlM (fun arguments entry =>
      match entry.2 with
      | .string text => some (arguments.insert entry.1 text)
      | _ => none) arguments = some (arguments.insertAll lines) := by
  induction lines generalizing arguments with
  | nil => rfl
  | cons line lines ih => exact ih (arguments.insert line.1 line.2)

theorem argumentsOf?_argumentsTable (arguments : Arguments) :
    argumentsOf? (argumentsTable arguments) = some arguments := by
  refine (collect_strings arguments.entries Table.empty).trans ?_
  rw [← Table.ofList, Table.ofList_entries]

theorem collect_staticTables (entries : List (String × Arguments))
    (statics : Table String Arguments) :
    (staticTables entries).foldlM (fun statics entry =>
      (argumentsOf? entry.2).map (statics.insert entry.1)) statics =
      some (statics.insertAll entries) := by
  induction entries generalizing statics with
  | nil => rfl
  | cons static entries ih =>
      rw [staticTables, List.map_cons, List.foldlM_cons, argumentsOf?_argumentsTable]
      exact ih (statics.insert static.1 static.2)

theorem staticsOf?_staticTables (origin : Origin) (statics : Table String Arguments) :
    staticsOf? (.table origin (staticTables statics.entries)) = some statics := by
  refine (collect_staticTables statics.entries Table.empty).trans ?_
  rw [← Table.ofList, Table.ofList_entries]

theorem get?_statics (config : Config) : ∃ origin, config.tables.get? "static_datasets" =
    some (.table origin (staticTables config.statics.entries)) := by
  rw [tables]
  split
  next empty =>
    have none : config.statics.entries = [] := List.isEmpty_iff.1 empty
    exact ⟨.header, by rw [none]; rfl⟩
  next some =>
    refine ⟨.path, ?_⟩
    obtain ⟨static, statics, entries⟩ := List.exists_cons_of_ne_nil (mt List.isEmpty_iff.2 some)
    rw [entries]
    rfl

theorem ofEntries?_tables (config : Config) : ofEntries? config.tables = some config := by
  have realm : config.tables.get? "namespace" = some (.string config.realm) := rfl
  have runtime : config.tables.get? "runtime_arguments" =
      some (argumentsTable config.runtime) := rfl
  obtain ⟨origin, statics⟩ := config.get?_statics
  simp [ofEntries?, realm, runtime, statics, argumentsOf?_argumentsTable, staticsOf?_staticTables]

theorem ofToml_toToml (config : Config) :
    ofToml config.toToml = config.validate.map fun _ => config := by
  rw [ofToml, document?_toToml, Option.bind_some, ofEntries?_tables]
  cases valid : config.validate <;> simp [valid, Except.map]

theorem invalidInput_of_validate {config : Config} {fault : Fault}
    (rejects : config.validate = .error fault) : ∃ message, fault = .invalidInput message := by
  rw [validate] at rejects
  split_ifs at rejects
  all_goals
    cases rejects
    exact ⟨_, rfl⟩

/-! ## Files -/

section Files

variable {Path Disk : Type} {files : FileSystem Path Disk} {config : Config} {path : Path}
  {disk after : Disk}

theorem save_eq_ok_iff :
    save files disk path config = .ok after ↔
      files.write disk path (FileTree.bytesOf config.toToml) = some after := by
  rw [save]
  cases files.write disk path (FileTree.bytesOf config.toToml) <;> simp

theorem load_of_save (returns : files.Returns) (saved : save files disk path config = .ok after) :
    load files after path =
      match config.validate with
      | .error (.invalidInput message) =>
        .error (.invalidInput (message ++ " (" ++ files.display path ++ ")"))
      | answer => answer.map fun _ => config := by
  rw [load, FileSystem.text?_of_write returns (save_eq_ok_iff.1 saved)]
  simp only [ofToml_toToml]
  cases valid : config.validate with
  | ok => rfl
  | error fault =>
      obtain ⟨message, rfl⟩ := invalidInput_of_validate valid
      rfl

end Files

/-- A configuration survives its own format, as a text and as a file: it is read back if it
is valid, and rejected as invalid input otherwise.  Of the file system it is assumed that the
bytes written to a path are read from it; saving fails only if writing does. -/
theorem toml_round_trip (config : Config) :
    (config.validate = .ok () → ofToml config.toToml = .ok config) ∧
    (∀ fault, config.validate = .error fault → ∃ message, fault = .invalidInput message ∧
      ofToml config.toToml = .error (.invalidInput message)) ∧
    ∀ {Path Disk : Type} (files : FileSystem Path Disk), files.Returns → ∀ disk path,
      ((files.write disk path (FileTree.bytesOf config.toToml)).isSome →
        ∃ after, save files disk path config = .ok after) ∧
      ∀ after, save files disk path config = .ok after →
        (config.validate = .ok () → load files after path = .ok config) ∧
        ∀ message, config.validate = .error (.invalidInput message) →
          load files after path =
            .error (.invalidInput (message ++ " (" ++ files.display path ++ ")")) := by
  refine ⟨fun valid => ?_, fun fault rejects => ?_,
    fun files returns disk path => ⟨fun writes => ?_, fun after saved => ?_⟩⟩
  · rw [ofToml_toToml, valid]
    rfl
  · obtain ⟨message, rfl⟩ := invalidInput_of_validate rejects
    exact ⟨message, rfl, by rw [ofToml_toToml, rejects]; rfl⟩
  · obtain ⟨after, written⟩ := Option.isSome_iff_exists.1 writes
    exact ⟨after, save_eq_ok_iff.2 written⟩
  · have loads := load_of_save returns saved
    exact ⟨fun valid => by rw [loads, valid]; rfl, fun message rejects => by rw [loads, rejects]⟩

theorem toml_round_trip_quotes :
    let config : Config := { realm := "\"\"\"\\\n" }
    ofToml config.toToml = .ok config ∧
      ∃ after, save FileTree.system {} "/tmp/cache.toml" config = .ok after ∧
        load FileTree.system after "/tmp/cache.toml" = .ok config := by
  intro config
  have valid : config.validate = .ok () := by
    simp [config, validate, isBlank, isSpace, Table.keys, Table.empty]
  obtain ⟨reads, -, files⟩ := toml_round_trip config
  obtain ⟨saves, loads⟩ := files FileTree.system FileTree.system_returns {} "/tmp/cache.toml"
  have place : FileTree.locate? {} "/tmp/cache.toml" = some ["tmp", "cache.toml"] := by decide
  obtain ⟨after, saved⟩ := saves (Option.isSome_iff_exists.2
    ⟨_, FileTree.write?_eq_some_iff.2 ⟨_, place, by decide, rfl⟩⟩)
  exact ⟨reads valid, after, saved, (loads after saved).1 valid⟩

end DatasetCache.Config
