import Mathlib
import ModifierFacts.Proofs.CommandLine.Asked
import ModifierFacts.Proofs.CommandLine.FileTree
import ModifierFacts.Proofs.Config.Described
import ModifierFacts.Proofs.Extraction.Accepting
import ModifierFacts.Proofs.Extraction.ReadBack
import ModifierFacts.Proofs.Json.Spaced
import ModifierFacts.Proofs.Sink.Lines

/-!
# What an extraction leaves behind

The program reads its configuration and its input before it touches the output file, and once it has
both, the outcome is that of the run.

* `FactSink.jsonLines_alike_watchedMemory`: the sink of lines behaves like a memory that is watched,
  so it holds the lines of the facts that the log shows;
* `CommandLine.extractTo_eq`: the outcome of a run whose facts go to a file;
* `RunStats.printedAs_pretty`: what is printed of the counters is read back as the counters;
* `CommandLine.Holds`: a file holds a document; `workersOf`: the number of workers of a run;
* **`CommandLine.extract_decides`**: exit code, output, messages and files of an extraction.
-/

namespace ModifierFacts

/-! ## 1. Runs over lines -/

/-- The sink of lines behaves like a memory that is watched. -/
theorem FactSink.jsonLines_alike_watchedMemory :
    jsonLines.Alike memory.observed fun s o => s.Lists o.log.taken := by
  intro s o h call
  obtain ⟨hreply, hstate⟩ := jsonLines_alike_memory s o.log.taken h call
  have haccept : (memory.observed.reply o call).1 = .accepted := memory_accepting.observed o call
  have htaken : (memory.observed.reply o call).2.log.taken = (memory.reply o.log.taken call).2 := by
    rw [log_observed_reply, haccept, SinkLog.taken_append]
    cases call with
    | record fact => rfl
    | flush => exact List.append_nil _
  refine ⟨?_, ?_⟩
  · rw [hreply, memory_accepting, haccept]
  · show JsonLines.Lists _ (SinkLog.taken _)
    rw [htaken]
    exact hstate

namespace CommandLine

/-- The outcome of a run whose facts go to a file. -/
theorem extractTo_eq (output : String) (config : Config) (input : ExtractionInput) :
    let facts := walk (fun _ => false) [] (pairsOf input.units)
    extractTo output config input =
      runOutcome output
        (match input.units.findSome? fun u =>
            RunSummary.blocks config.failurePolicy (u, u.result) with
          | some e => .error (.failed e)
          | none => .ok { RunSummary.ofUnits input.units with stats := .ofRun input.units facts })
        (facts.flatMap Fact.line) := by
  intro facts
  have hstart : Context.Alike
      (fun (s : JsonLines) (o : Observed (List Fact)) => s.Lists o.log.taken)
      (.start { pending := some [] }) (Context.start []).watched :=
    ⟨rfl, ⟨⟨rfl, rfl, rfl⟩, rfl⟩, rfl, rfl, rfl⟩
  obtain ⟨hresult, hstate⟩ := Context.run_alike FactSink.jsonLines_alike_watchedMemory
    config.failurePolicy input.units hstart
  obtain ⟨htaken, hending⟩ :=
    Context.run_accepting FactSink.memory_accepting config.failurePolicy [] input.units
  have hcontent := hstate.sinkState.content
  rw [htaken] at hcontent
  show runOutcome output (Context.run _ _ _ _).1 (contentOf (Context.run _ _ _ _).2.sinkState) = _
  rw [hresult, hending]
  exact congrArg _ hcontent

end CommandLine

/-! ## 2. What is seen of an extraction -/

namespace RunStats

/-- Every counter is a word of 64 bits. -/
structure FitWords (s : RunStats) : Prop where
  entitiesCreated : s.entitiesCreated < 2 ^ 64
  edgesAttached : s.edgesAttached < 2 ^ 64
  declarationsClassified : s.declarationsClassified < 2 ^ 64
  unitsAborted : s.unitsAborted < 2 ^ 64

/-- The text is a document of the counters under their names. -/
def PrintedAs (s : RunStats) (text : String) : Prop :=
  Json.Document.read text =
    ⟨.object [(some "entities_created", .number (.integer s.entitiesCreated)),
      (some "edges_attached", .number (.integer s.edgesAttached)),
      (some "declarations_classified", .number (.integer s.declarationsClassified)),
      (some "units_aborted", .number (.integer s.unitsAborted))] true, true⟩

/-- **What is printed of counters is read back as the counters.** -/
theorem printedAs_pretty {s : RunStats} (h : s.FitWords) :
    s.PrintedAs (s.toJson.pretty ++ "\n") := by
  have hfits : s.toJson.FitsWords :=
    ⟨h.entitiesCreated, h.edgesAttached, h.declarationsClassified, h.unitsAborted, trivial⟩
  exact Json.Value.read_pretty hfits ['\n'] (by simp [Json.isBlank])

end RunStats

/-- The files after a command with this outcome. -/
def FileTree.after (tree : FileTree) (outcome : CommandLine.Outcome) : FileTree :=
  match outcome.written with
  | some (path, content) => tree.write path content
  | none => tree

/-- The number of workers of a run that is told one or none, on a machine that starts `n` of them
where it is not told how many. Zero does not tell. -/
def workersOf (told : Option UInt64) (n : Nat) : Nat :=
  match told with
  | none => n
  | some threads => if threads = 0 then n else threads.toNat

namespace CommandLine

/-! ## 3. Extractions -/

/-- A file holds a text of this document. -/
def Holds {α : Type} (reader : Json.Reader α) (file : Except FileError String) (a : α) : Prop :=
  ∃ text, file = .ok text ∧ Json.decode reader text = .ok a

theorem loadDocument_eq_ok_iff {α : Type} (reader : Json.Reader α) (storage : Storage)
    (path : String) (a : α) :
    loadDocument reader storage path = .ok a ↔ Holds reader (storage.read path) a := by
  unfold loadDocument Holds
  cases storage.read path with
  | error e => simp [documentOf]
  | ok text =>
    rw [documentOf]
    cases hdecoded : Json.decode reader text <;> simp [hdecoded]

theorem exists_loadDocument_error_iff {α : Type} (reader : Json.Reader α) (storage : Storage)
    (path : String) :
    (∃ e, loadDocument reader storage path = .error e) ↔
      ¬ ∃ a, Holds reader (storage.read path) a := by
  simp only [← loadDocument_eq_ok_iff]
  cases loadDocument reader storage path <;> simp

theorem exit_failed {chain : List String} : (Outcome.failed chain).exit ≠ 0 :=
  (by decide : (1 : UInt32) ≠ 0)

/-- The policy that counts lets a run pass if neither the flag nor the file ends it, or if nothing
is rejected. -/
theorem findSome?_blocks_override (config : Config) (abortRun : Bool) (threads : Option UInt64)
    (units : List CompilationUnit) :
    (units.findSome? fun u =>
        RunSummary.blocks (override config abortRun threads).failurePolicy (u, u.result)) = none ↔
      ¬ (abortRun = true ∨ config.failurePolicy = .abortRun) ∨ ∀ u ∈ units, u.Classifies := by
  have hpolicy : (override config abortRun threads).failurePolicy = .abortRun ↔
      (abortRun = true ∨ config.failurePolicy = .abortRun) := by
    cases abortRun <;> simp [override]
  rw [RunSummary.findSome?_blocks_result_eq_none_iff, hpolicy, Decidable.imp_iff_not_or]

/-- Where the configuration or the input cannot be loaded, the outcome is an error and no file is
written. -/
theorem extract_of_error {storage : Storage} {config : Option String} {input : String}
    (output : String) (abortRun : Bool) (threads : Option UInt64)
    (h : (∃ e, Config.load storage (config.getD configFile) = .error e) ∨
      ∃ e, loadDocument ExtractionInput.reader storage input = .error e) :
    ∃ chain, extract storage config input output abortRun threads = .failed chain := by
  unfold extract
  cases hloaded : Config.load storage (config.getD configFile) with
  | error e => exact ⟨e.chain, rfl⟩
  | ok settings =>
    dsimp only
    rw [hloaded] at h
    obtain ⟨e, he⟩ | ⟨e, he⟩ := h
    · cases he
    · rw [he]
      exact ⟨e.chain, rfl⟩

/-- Where everything can be loaded and the file can be created, the outcome is that of the run. -/
theorem extract_of_ok {storage : Storage} {config : Option String} {input output : String}
    {abortRun : Bool} {threads : Option UInt64} {settings : Config} {document : ExtractionInput}
    (hloaded : Config.load storage (config.getD configFile) = .ok settings)
    (hdecoded : loadDocument ExtractionInput.reader storage input = .ok document)
    (hwritable : storage.create output = .ok ()) :
    extract storage config input output abortRun threads =
      extractTo output (override settings abortRun threads) document := by
  rw [extract, hloaded]
  dsimp only
  rw [hdecoded]
  dsimp only
  rw [hwritable]

/-- One message for each unit that was dropped. -/
theorem failureLines_ofUnits (units : List CompilationUnit) :
    failureLines (RunSummary.ofUnits units).failures =
      String.join (units.filterMap fun u => u.firstRejection?.map fun e =>
        "aborted " ++ u.name ++ ": " ++ e.message ++ "\n") := by
  rw [failureLines, RunSummary.ofUnits, List.map_filterMap]
  simp only [Option.map_map]
  rfl

/-- Three units, the second of which is rejected, beside a configuration and an old output file. -/
def threeUnitsTree (configText : String) : FileTree :=
  ⟨[(["c"], .bytes (Text.bytes configText)),
    (["i"], .bytes (Text.bytes (ExtractionInput.mk Context.threeUnits).toJson.toText)),
    (["o"], .bytes [0x6f])], []⟩

theorem read_threeUnitsTree (configText : String) {path : String} {place : Place} {text : String}
    (hpath : FileTree.path path = .ok ⟨false, place, false⟩)
    (hfind : (threeUnitsTree configText).find ⟨false, place, false⟩ =
      .ok (.bytes (Text.bytes text))) :
    (threeUnitsTree configText).storage.read path = .ok text := by
  rw [FileTree.read_of_find hpath hfind, File.text_bytes]

theorem create_threeUnitsTree (configText : String) :
    (threeUnitsTree configText).storage.create "o" = .ok () := by
  have houtput : Path.ofText "o" = ⟨false, ["o"], false⟩ := by cbv
  show (FileTree.path "o" >>= (threeUnitsTree configText).create) = _
  rw [FileTree.path, houtput]
  rfl

theorem holds_threeUnitsTree (configText : String) :
    Holds ExtractionInput.reader ((threeUnitsTree configText).storage.read "i")
      ⟨Context.threeUnits⟩ := by
  have hinput : Path.ofText "i" = ⟨false, ["i"], false⟩ := by cbv
  have hcanonical : (ExtractionInput.mk Context.threeUnits).Canonical := by
    simp [ExtractionInput.Canonical, CompilationUnit.Canonical, DeclarationRecord.Canonical,
      Context.threeUnits, Symbol.plain, Symbol.withFlags, DeclaredAccessibility.Canonical]
  exact ⟨_, read_threeUnitsTree configText (by rw [FileTree.path, hinput]; rfl) rfl,
    (ExtractionInput.stands hcanonical).decode (by decide)⟩

theorem read_config_threeUnitsTree (configText : String) :
    (threeUnitsTree configText).storage.read "c" = .ok configText := by
  have hconfig : Path.ofText "c" = ⟨false, ["c"], false⟩ := by cbv
  exact read_threeUnitsTree configText (by rw [FileTree.path, hconfig]; rfl) rfl

theorem says_absent_threeUnitsTree (configText : String) :
    Config.Says ((threeUnitsTree configText).storage.read "n") {} := by
  have hconfig : Path.ofText "n" = ⟨false, ["n"], false⟩ := by cbv
  have hread : (threeUnitsTree configText).storage.read "n" = .error .notFound := by
    show (FileTree.path "n" >>= fun path =>
      (threeUnitsTree configText).find path >>= File.text) = _
    rw [FileTree.path, hconfig]
    rfl
  rw [hread]
  exact .absent .notFound

/-- A line with a comment, and one that sets the policy. -/
def abortRunLines : List Toml.Line :=
  [{ indent := .none
     assignment := none
     trail := .none
     comment := some ⟨" stop early".toList, by simp [Toml.isPlain]⟩ },
    { indent := .none
      assignment := some
        { key := "failure-policy".toList
          before := .space
          behind := .space
          value := .text "abort-run".toList (by simp [Toml.isPlain])
          key_ne_nil := by decide +kernel
          isKeyChar_of_mem := List.all_eq_true.mp (by decide +kernel) }
      trail := .none
      comment := none }]

/-- One line that sets the number of workers. -/
def oneWorkerLines : List Toml.Line :=
  [{ indent := .none
     assignment := some
      { key := "threads".toList
        before := .space
        behind := .space
        value := .integer false 1 (by decide)
        key_ne_nil := by decide +kernel
        isKeyChar_of_mem := List.all_eq_true.mp (by decide +kernel) }
     trail := .none
     comment := none }]

theorem says_oneWorker : Config.Says ((threeUnitsTree "threads = 1\n").storage.read "c")
    { failurePolicy := .abortUnit, threads := some 1 } := by
  have htext : "threads = 1\n" = Toml.textOf oneWorkerLines := by cbv
  have hthreads : Config.ThreadsGivenBy (.scalar (.integer 1)) 1 := ⟨1, rfl, by decide, rfl⟩
  rw [read_config_threeUnitsTree, htext, Config.says_textOf]
  exact ⟨List.nodup_singleton _, rfl, 1, rfl, hthreads⟩

end CommandLine

end ModifierFacts
