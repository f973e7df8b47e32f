import ModifierFacts.CommandLine.Storage
import ModifierFacts.Proofs.Json.Exact
import ModifierFacts.Proofs.Toml.Lines

/-!
# What a configuration file says

A configuration has two settings, and each has a default. Which of them a text gives, and what comes
of a text that gives something else, or of a file that is not there.

* `FailurePolicy.GivenBy`, `Config.ThreadsGivenBy`: which items give a setting;
* `Config.DescribedBy`: the configuration of a root table; all other keys are passed over;
* `Config.Says`: the configuration of a file, which may be missing;
* **`Config.load_eq_ok_iff`**: loading gives what the file says, and fails if it says nothing;
* `Config.load_eq_error_iff`, `Config.parse_eq_error_iff`: what it fails with;
* **`Config.says_textOf`**: what a text of single lines says.
-/

namespace ModifierFacts

open Json (except_bind_eq_ok_iff except_pure_eq_ok_iff)

/-! ## 1. Settings -/

namespace FailurePolicy

/-- The name of a policy. -/
inductive NamedBy : String → FailurePolicy → Prop where
  | abortUnit : NamedBy "abort-unit" .abortUnit
  | abortRun : NamedBy "abort-run" .abortRun

/-- Nothing is in the item. -/
inductive EmptyPayload : Toml.Item → Prop where
  | array : EmptyPayload (.array [])
  | inline : EmptyPayload (.inline [])
  | table (origin : Toml.Origin) : EmptyPayload (.table origin [])
  | rows : EmptyPayload (.rows [])

/-- An item gives a policy: by its name, or as a table whose one key is the name and has nothing
in it. -/
inductive GivenBy : Toml.Item → FailurePolicy → Prop where
  | name {s : String} {p : FailurePolicy} (h : NamedBy s p) : GivenBy (.scalar (.text s)) p
  | inline {s : String} {p : FailurePolicy} {item : Toml.Item} (h : NamedBy s p)
      (hitem : EmptyPayload item) : GivenBy (.inline [(s, item)]) p
  | table {s : String} {p : FailurePolicy} {item : Toml.Item} (origin : Toml.Origin)
      (h : NamedBy s p) (hitem : EmptyPayload item) : GivenBy (.table origin [(s, item)]) p

theorem ofName_eq_ok_iff (s : String) (p : FailurePolicy) : ofName s = .ok p ↔ NamedBy s p := by
  constructor
  · intro h
    unfold ofName named at h
    by_cases hunit : s = "abort-unit"
    · subst hunit
      cases h
      exact .abortUnit
    · by_cases hrun : s = "abort-run"
      · subst hrun
        cases h
        exact .abortRun
      · have hunit' : (s == "abort-unit") = false := beq_eq_false_iff_ne.mpr hunit
        have hrun' : (s == "abort-run") = false := beq_eq_false_iff_ne.mpr hrun
        simp only [List.lookup_cons, List.lookup_nil, hunit', hrun'] at h
        cases h
  · intro h
    cases h with
    | abortUnit => rfl
    | abortRun => rfl

theorem emptyPayload_eq_ok_iff (item : Toml.Item) :
    emptyPayload item = .ok () ↔ EmptyPayload item := by
  constructor
  · intro h
    unfold emptyPayload at h
    split at h
    · exact .array
    · exact .inline
    · exact .table _
    · exact .rows
    all_goals cases h
  · intro h
    cases h <;> rfl

theorem ofEntry_eq_ok_iff (entry : String × Toml.Item) (p : FailurePolicy) :
    ofEntry entry = .ok p ↔ NamedBy entry.1 p ∧ EmptyPayload entry.2 := by
  rw [← ofName_eq_ok_iff, ← emptyPayload_eq_ok_iff, ofEntry]
  cases ofName entry.1 with
  | error e => simp [bind, Except.bind]
  | ok q =>
    cases emptyPayload entry.2 with
    | error e => simp [bind, Except.bind]
    | ok u => simp [bind, Except.bind, pure, Except.pure]

/-- **Which items are read as a policy, and as which one.** -/
theorem ofItem_eq_ok_iff (item : Toml.Item) (p : FailurePolicy) :
    ofItem item = .ok p ↔ GivenBy item p := by
  constructor
  · intro h
    unfold ofItem at h
    split at h
    · exact .name ((ofName_eq_ok_iff _ p).mp h)
    · cases h
    · cases h
    · obtain ⟨hname, hempty⟩ := (ofEntry_eq_ok_iff _ p).mp h
      exact .inline hname hempty
    · obtain ⟨hname, hempty⟩ := (ofEntry_eq_ok_iff _ p).mp h
      exact .table _ hname hempty
    all_goals cases h
  · intro h
    cases h with
    | name h => exact (ofName_eq_ok_iff _ p).mpr h
    | inline h hitem => exact (ofEntry_eq_ok_iff _ p).mpr ⟨h, hitem⟩
    | table origin h hitem => exact (ofEntry_eq_ok_iff _ p).mpr ⟨h, hitem⟩

end FailurePolicy

namespace Config

/-- An item gives a number of workers: a whole number from zero up. -/
def ThreadsGivenBy (item : Toml.Item) (n : UInt64) : Prop :=
  ∃ i : Int, item = .scalar (.integer i) ∧ 0 ≤ i ∧ n = .ofNat i.toNat

theorem threadsOfItem_eq_ok_iff (item : Toml.Item) (n : UInt64) :
    threadsOfItem item = .ok n ↔ ThreadsGivenBy item n := by
  constructor
  · intro h
    unfold threadsOfItem at h
    split at h
    · rename_i i
      split at h
      · rename_i hi
        cases h
        exact ⟨i, rfl, hi, rfl⟩
      · cases h
    · cases h
  · intro ⟨i, hitem, hi, hn⟩
    rw [hitem, hn]
    exact if_pos hi

/-! ## 2. Tables -/

/-- The setting `a` under a key of a table: `gives` tells what the item there gives, and without
one it is the default. -/
def SetTo {α : Type} (entries : Toml.Entries) (key : String) (gives : Toml.Item → α → Prop)
    (default a : α) : Prop :=
  match entries.lookup key with
  | some item => gives item a
  | none => a = default

/-- The configuration of a root table, where keys that are missing leave the settings of `base`. -/
structure DescribedOver (base : Config) (entries : Toml.Entries) (c : Config) : Prop where
  failurePolicy : SetTo entries "failure-policy" FailurePolicy.GivenBy base.failurePolicy
    c.failurePolicy
  threads : SetTo entries "threads" (fun item t => ∃ n, t = some n ∧ ThreadsGivenBy item n)
    base.threads c.threads

/-- **The configuration of a root table.** Without its keys a unit that is rejected is dropped, and
the machine chooses the number of workers. All other keys are passed over. -/
def DescribedBy (entries : Toml.Entries) (c : Config) : Prop :=
  DescribedOver { failurePolicy := .abortUnit, threads := none } entries c

/-- One entry in front decides the setting, or leaves it to the others. -/
theorem setTo_cons_iff {α : Type} {entry : String × Toml.Item} {entries : Toml.Entries}
    (h : Toml.Keyed (entry :: entries)) (key : String) (gives : Toml.Item → α → Prop)
    (default a : α) :
    SetTo (entry :: entries) key gives default a ↔
      ∃ b, SetTo [entry] key gives default b ∧ SetTo entries key gives b a := by
  obtain ⟨k, item⟩ := entry
  by_cases hkey : key = k
  · subst hkey
    have hrest : entries.lookup key = none :=
      Toml.lookup_eq_none_iff_notMem.mpr (List.nodup_cons.mp h).1
    simp [SetTo, hrest]
  · have hne : (key == k) = false := beq_eq_false_iff_ne.mpr hkey
    simp [SetTo, List.lookup_cons, hne]

theorem describedOver_cons_iff {entry : String × Toml.Item} {entries : Toml.Entries}
    (h : Toml.Keyed (entry :: entries)) (base c : Config) :
    DescribedOver base (entry :: entries) c ↔
      ∃ mid, DescribedOver base [entry] mid ∧ DescribedOver mid entries c := by
  constructor
  · intro ⟨hpolicy, hthreads⟩
    obtain ⟨p, hp, hpolicy⟩ := (setTo_cons_iff h _ _ _ _).mp hpolicy
    obtain ⟨t, ht, hthreads⟩ := (setTo_cons_iff h _ _ _ _).mp hthreads
    exact ⟨⟨p, t⟩, ⟨hp, ht⟩, ⟨hpolicy, hthreads⟩⟩
  · intro ⟨mid, ⟨hp, ht⟩, ⟨hpolicy, hthreads⟩⟩
    exact ⟨(setTo_cons_iff h _ _ _ _).mpr ⟨_, hp, hpolicy⟩,
      (setTo_cons_iff h _ _ _ _).mpr ⟨_, ht, hthreads⟩⟩

/-- One entry is taken in as it describes the configuration. -/
theorem addEntry_eq_ok_iff (base : Config) (entry : String × Toml.Item) (c : Config) :
    addEntry base entry = .ok c ↔ DescribedOver base [entry] c := by
  obtain ⟨key, item⟩ := entry
  obtain ⟨policy, threads⟩ := c
  unfold addEntry
  by_cases hpolicy : key = "failure-policy"
  · subst hpolicy
    rw [if_pos rfl, except_bind_eq_ok_iff]
    constructor
    · intro ⟨p, hp, hc⟩
      cases hc
      exact ⟨(FailurePolicy.ofItem_eq_ok_iff item _).mp hp, rfl⟩
    · intro ⟨hp, ht⟩
      have ht : threads = base.threads := ht
      rw [ht]
      exact ⟨policy, (FailurePolicy.ofItem_eq_ok_iff item policy).mpr hp, rfl⟩
  · rw [if_neg hpolicy]
    by_cases hthreads : key = "threads"
    · subst hthreads
      rw [if_pos rfl, except_bind_eq_ok_iff]
      constructor
      · intro ⟨n, hn, hc⟩
        cases hc
        exact ⟨rfl, n, rfl, (threadsOfItem_eq_ok_iff item n).mp hn⟩
      · intro ⟨hp, n, ht, hn⟩
        have hp : policy = base.failurePolicy := hp
        have ht : threads = some n := ht
        rw [hp, ht]
        exact ⟨n, (threadsOfItem_eq_ok_iff item n).mpr hn, rfl⟩
    · have hfirst : ("failure-policy" == key) = false :=
        beq_eq_false_iff_ne.mpr (Ne.symm hpolicy)
      have hsecond : ("threads" == key) = false := beq_eq_false_iff_ne.mpr (Ne.symm hthreads)
      rw [if_neg hthreads, except_pure_eq_ok_iff]
      constructor
      · intro hc
        rw [hc]
        exact ⟨by simp [SetTo, List.lookup_cons, hfirst],
          by simp [SetTo, List.lookup_cons, hsecond]⟩
      · intro ⟨hp, ht⟩
        simp only [SetTo, List.lookup_cons, List.lookup_nil, hfirst, hsecond] at hp ht
        rw [hp, ht]

/-- Entry after entry. -/
theorem foldlM_addEntry_iff {entries : Toml.Entries} (h : Toml.Keyed entries) (base c : Config) :
    entries.foldlM addEntry base = .ok c ↔ DescribedOver base entries c := by
  induction entries generalizing base with
  | nil =>
    rw [List.foldlM_nil, except_pure_eq_ok_iff]
    constructor
    · intro hc
      rw [hc]
      exact ⟨rfl, rfl⟩
    · intro ⟨hp, ht⟩
      obtain ⟨policy, threads⟩ := c
      have hp : policy = base.failurePolicy := hp
      have ht : threads = base.threads := ht
      rw [hp, ht]
  | cons entry entries ih =>
    have hentries : Toml.Keyed entries := (List.nodup_cons.mp h).2
    rw [List.foldlM_cons, except_bind_eq_ok_iff, describedOver_cons_iff h]
    simp only [addEntry_eq_ok_iff, ih hentries]

theorem ofTable_eq_ok_iff {entries : Toml.Entries} (h : Toml.Keyed entries) (c : Config) :
    ofTable entries = .ok c ↔ DescribedBy entries c :=
  foldlM_addEntry_iff h _ c

/-! ## 3. Files -/

/-- **Which texts are a configuration, and which one.** -/
theorem parse_eq_ok_iff (text : String) (c : Config) :
    parse text = .ok c ↔ ∃ entries, Toml.parse text = some entries ∧ DescribedBy entries c := by
  unfold parse
  cases hparse : Toml.parse text with
  | none => simp
  | some entries =>
    have htable := ofTable_eq_ok_iff (Toml.keyed_parse hparse) c
    simp only [Option.some.injEq, exists_eq_left', ← htable]
    cases ofTable entries <;> simp

/-- A text that is not well formed is told from one that is and describes no configuration. -/
theorem parse_eq_error_iff (text : String) (e : ConfigError) :
    parse text = .error e ↔
      (Toml.parse text = none ∧ e = .malformed) ∨
        ∃ entries reason, Toml.parse text = some entries ∧ ofTable entries = .error reason ∧
          e = .unfit reason := by
  unfold parse
  cases hparse : Toml.parse text with
  | none => simp [eq_comm]
  | some entries => cases htable : ofTable entries <;> simp [htable, eq_comm]

end Config

/-- Nothing is at the path. -/
inductive FileError.LeadsNowhere : FileError → Prop where
  | notFound : LeadsNowhere .notFound
  | notDirectory : LeadsNowhere .notDirectory
  | nameTooLong : LeadsNowhere .nameTooLong
  | unreachable (reason : String) : LeadsNowhere (.unreachable reason)

namespace Config

/-- **What a configuration file says.** One that is not there says the defaults; one that is has to
be a well-formed text that describes a configuration. -/
inductive Says : Except FileError String → Config → Prop where
  | absent {e : FileError} (h : e.LeadsNowhere) :
      Says (.error e) { failurePolicy := .abortUnit, threads := none }
  | text {s : String} {entries : Toml.Entries} {c : Config}
      (hparse : Toml.parse s = some entries) (h : DescribedBy entries c) : Says (.ok s) c

theorem says_text_iff (s : String) (c : Config) :
    Says (.ok s) c ↔ ∃ entries, Toml.parse s = some entries ∧ DescribedBy entries c := by
  constructor
  · intro h
    cases h with
    | text hparse h => exact ⟨_, hparse, h⟩
  · intro ⟨entries, hparse, h⟩
    exact .text hparse h

theorem ofFile_of_leadsNowhere {cause : FileError} (h : cause.LeadsNowhere) (path : String) :
    ofFile path (.error cause) = .ok { failurePolicy := .abortUnit, threads := none } := by
  cases h <;> rfl

theorem ofFile_of_not_leadsNowhere {cause : FileError} (h : ¬ cause.LeadsNowhere) (path : String) :
    ofFile path (.error cause) = .error (.unreadable path cause.message) := by
  cases cause with
  | notFound => exact absurd .notFound h
  | notDirectory => exact absurd .notDirectory h
  | nameTooLong => exact absurd .nameTooLong h
  | unreachable reason => exact absurd (.unreachable reason) h
  | _ => rfl

/-- **Loading gives what the file says**, and fails if the file says nothing. -/
theorem load_eq_ok_iff (storage : Storage) (path : String) (c : Config) :
    load storage path = .ok c ↔ Says (storage.read path) c := by
  unfold load
  cases storage.read path with
  | ok s =>
    rw [says_text_iff]
    exact parse_eq_ok_iff s c
  | error cause =>
    by_cases hnowhere : cause.LeadsNowhere
    · rw [ofFile_of_leadsNowhere hnowhere]
      constructor
      · intro h
        cases h
        exact .absent hnowhere
      · intro h
        cases h
        rfl
    · rw [ofFile_of_not_leadsNowhere hnowhere]
      refine iff_of_false nofun ?_
      intro h
      cases h with
      | absent h => exact hnowhere h

/-- **What loading fails with**: the error of the text, or that something is at the path and cannot
be read. -/
theorem load_eq_error_iff (storage : Storage) (path : String) (e : ConfigError) :
    load storage path = .error e ↔
      (∃ text, storage.read path = .ok text ∧ parse text = .error e) ∨
        ∃ cause, storage.read path = .error cause ∧ ¬ cause.LeadsNowhere ∧
          e = .unreadable path cause.message := by
  unfold load
  cases storage.read path with
  | ok text => simp [ofFile]
  | error cause =>
    by_cases hnowhere : cause.LeadsNowhere
    · rw [ofFile_of_leadsNowhere hnowhere]
      simp [hnowhere]
    · rw [ofFile_of_not_leadsNowhere hnowhere]
      simp [hnowhere, eq_comm]

theorem exists_load_error_iff (storage : Storage) (path : String) :
    (∃ e, load storage path = .error e) ↔ ¬ ∃ c, Says (storage.read path) c := by
  simp only [← load_eq_ok_iff]
  cases load storage path <;> simp

/-- **What a text of single lines says**: no key may be assigned twice, and what the lines assign
describes the configuration. -/
theorem says_textOf (lines : List Toml.Line) (c : Config) :
    Says (.ok (Toml.textOf lines)) c ↔
      Toml.Keyed (Toml.entriesOf lines) ∧ DescribedBy (Toml.entriesOf lines) c := by
  rw [says_text_iff]
  simp only [Toml.parse_textOf]
  constructor
  · intro ⟨entries, ⟨hkeyed, hentries⟩, hc⟩
    rw [hentries] at hc
    exact ⟨hkeyed, hc⟩
  · intro ⟨hkeyed, hc⟩
    exact ⟨_, ⟨hkeyed, rfl⟩, hc⟩

end Config

end ModifierFacts
