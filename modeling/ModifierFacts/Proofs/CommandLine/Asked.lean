import ModifierFacts.Proofs.CommandLine.Reading

/-!
# What an argument list asks for

A command is asked for by the name of its subcommand, between options that every command has and its
own ones.

* `parse_eq_ok_iff`: the command that is read, out of the options that the arguments give;
* `AsksExtract`: an argument list asks for an extraction with some settings;
* **`parse_eq_extract_iff`**: it is read as that extraction exactly if it asks for it;
* **`AsksExtract.abortRun_iff`**: it asks to stop at the first failure by one argument only.
-/

namespace ModifierFacts.CommandLine

open Json (except_bind_eq_ok_iff except_pure_eq_ok_iff)

/-! ## 1. Commands -/

/-- The name of a subcommand is no option, where it is not the value of one. -/
theorem read_of_subcommand? {side : Side} {arg : String} {sub : Subcommand}
    (h : subcommand? side arg = some sub) (switches : List Switch) :
    side.read switches arg = .error .usage := by
  unfold subcommand? at h
  by_cases hbusy : (side.awaitsValue || side.closed) = true
  · rw [if_pos hbusy] at h
    cases h
  · rw [if_neg hbusy] at h
    rw [Bool.or_eq_true, not_or, Bool.not_eq_true, Bool.not_eq_true] at hbusy
    rw [Side.Free.read hbusy]
    have harg : arg ∈ subcommands.map (·.1) := by
      rw [← lookup_isSome_iff_mem, h]
      rfl
    have hnames : arg = "extract" ∨ arg = "classify" ∨ arg = "version" ∨ arg = "help" := by
      simpa [subcommands] using harg
    rcases hnames with rfl | rfl | rfl | rfl <;> rfl

/-- A subcommand is carried out with the options on both of its sides. -/
theorem parseFrom_eq_ok_iff (before : Side) (args : List String) (command : Command) :
    parseFrom before args = .ok command ↔
      ∃ words name rest sub last first after,
        args = words ++ name :: rest ∧
        words.foldlM (Side.read commonSwitches) before = .ok last ∧
        subcommand? last name = some sub ∧ last.settle = .ok first ∧
        Ends sub.switches {} rest after ∧ finish sub first.given after.given = .ok command := by
  induction args generalizing before with
  | nil =>
    have herror : ¬ parseFrom before [] = .ok command := by
      rw [parseFrom, except_bind_eq_ok_iff]
      intro ⟨_, _, hthrow⟩
      cases hthrow
    refine iff_of_false herror ?_
    intro ⟨words, name, rest, _, _, _, _, hargs, _⟩
    exact List.append_ne_nil_of_right_ne_nil words (List.cons_ne_nil name rest) hargs.symm
  | cons arg args ih =>
    cases hsub : subcommand? before arg with
    | none =>
      rw [parseFrom, hsub]
      dsimp only
      rw [except_bind_eq_ok_iff]
      simp only [ih]
      constructor
      · intro ⟨mid, hmid, words, name, rest, sub, last, first, after, hargs, hwords, hall⟩
        refine ⟨arg :: words, name, rest, sub, last, first, after, by rw [hargs]; rfl, ?_, hall⟩
        rw [List.foldlM_cons, except_bind_eq_ok_iff]
        exact ⟨mid, hmid, hwords⟩
      · intro ⟨words, name, rest, sub, last, first, after, hargs, hwords, hname, hall⟩
        cases words with
        | nil =>
          cases hargs
          cases hwords
          rw [hsub] at hname
          cases hname
        | cons word words =>
          cases hargs
          rw [List.foldlM_cons, except_bind_eq_ok_iff] at hwords
          obtain ⟨mid, hmid, hwords⟩ := hwords
          exact ⟨mid, hmid, words, name, rest, sub, last, first, after, rfl, hwords, hname, hall⟩
    | some sub =>
      -- no word can stand in front of the name, for the name is none
      have hfirst : parseFrom before (arg :: args) = .ok command ↔
          ∃ first after, before.settle = .ok first ∧ Ends sub.switches {} args after ∧
            finish sub first.given after.given = .ok command := by
        have hsides : (do
            let after ← (← args.foldlM (Side.read sub.switches) {}).settle
            finish sub (← before.settle).given after.given) = .ok command ↔
            ∃ first after, before.settle = .ok first ∧ Ends sub.switches {} args after ∧
              finish sub first.given after.given = .ok command := by
          simp only [except_bind_eq_ok_iff]
          constructor
          · intro ⟨last, hlast, after, hafter, first, hfirst, hfinish⟩
            exact ⟨first, after, hfirst, ⟨last, hlast, hafter⟩, hfinish⟩
          · intro ⟨first, after, hfirst, ⟨last, hlast, hafter⟩, hfinish⟩
            exact ⟨last, hlast, after, hafter, first, hfirst, hfinish⟩
        rw [parseFrom, hsub]
        cases sub with
        | help =>
          refine iff_of_false nofun ?_
          intro ⟨_, _, _, _, hfinish⟩
          cases hfinish
        | _ => exact hsides
      rw [hfirst]
      constructor
      · intro ⟨first, after, hall⟩
        exact ⟨[], arg, args, sub, before, first, after, rfl, rfl, hsub, hall⟩
      · intro ⟨words, name, rest, sub', last, first, after, hargs, hwords, hname, hall⟩
        cases words with
        | nil =>
          cases hargs
          cases hwords
          rw [hsub] at hname
          cases hname
          exact ⟨first, after, hall⟩
        | cons word words =>
          cases hargs
          rw [List.foldlM_cons, read_of_subcommand? hsub] at hwords
          cases hwords

/-- What is closed at the end awaited no value. -/
theorem Side.awaitsValue_closed_of_settle {side done : Side} (h : side.settle = .ok done) :
    side.awaitsValue = false ∧ done.closed = side.closed := by
  obtain ⟨given, pending, closed⟩ := side
  match pending with
  | none =>
    cases h
    exact ⟨rfl, rfl⟩
  | some (s, none) => cases h
  | some (s, some value) =>
    obtain ⟨-, -, -, rfl⟩ := (record_eq_ok_iff _ _ _ _).mp h
    exact ⟨rfl, rfl⟩

/-- The arguments behind a subcommand give options. A double dash can end them. -/
def GivesBehind (switches : List Switch) (args : List String) (given : Given) : Prop :=
  Gives switches args given ∨ ∃ words, args = words ++ ["--"] ∧ Gives switches words given

/-- The options in front of a subcommand. -/
theorem gives_iff_foldlM (words : List String) (name : String) (sub : Subcommand) (given : Given) :
    (∃ last first, words.foldlM (Side.read commonSwitches) {} = .ok last ∧
        subcommand? last name = some sub ∧ last.settle = .ok first ∧ first.given = given) ↔
      Gives commonSwitches words given ∧ subcommands.lookup name = some sub := by
  constructor
  · intro ⟨last, first, hlast, hname, hfirst, hgiven⟩
    obtain ⟨hawaits, hclosed⟩ := Side.awaitsValue_closed_of_settle hfirst
    rw [subcommand?, hawaits, Bool.false_or] at hname
    by_cases hlastClosed : last.closed = true
    · rw [if_pos hlastClosed] at hname
      cases hname
    · rw [if_neg hlastClosed] at hname
      obtain ⟨words', given', hgives, hwords⟩ :=
        (ends_empty_iff distinct_commonSwitches words first).mp ⟨last, hlast, hfirst⟩
      rcases hwords with ⟨rfl, rfl⟩ | ⟨-, rfl⟩
      · cases hgiven
        exact ⟨hgives, hname⟩
      · exact absurd hclosed.symm hlastClosed
  · intro ⟨hgives, hname⟩
    obtain ⟨last, hlast, hfirst⟩ := (ends_empty_iff distinct_commonSwitches words { given }).mpr
      ⟨words, given, hgives, .inl ⟨rfl, rfl⟩⟩
    obtain ⟨hawaits, hclosed⟩ := Side.awaitsValue_closed_of_settle hfirst
    refine ⟨last, { given }, hlast, ?_, hfirst, rfl⟩
    rw [subcommand?, hawaits, ← hclosed]
    exact hname

/-- The options behind a subcommand. -/
theorem givesBehind_iff_ends (sub : Subcommand) (rest : List String) (given : Given) :
    (∃ after, Ends sub.switches {} rest after ∧ after.given = given) ↔
      GivesBehind sub.switches rest given := by
  simp only [ends_empty_iff sub.distinct_switches]
  constructor
  · intro ⟨after, ⟨words, given', hgives, hrest⟩, hgiven⟩
    rcases hrest with ⟨rfl, rfl⟩ | ⟨rfl, rfl⟩
    · cases hgiven
      exact .inl hgives
    · cases hgiven
      exact .inr ⟨words, rfl, hgives⟩
  · intro h
    rcases h with hgives | ⟨words, hrest, hgives⟩
    · exact ⟨_, ⟨rest, given, hgives, .inl ⟨rfl, rfl⟩⟩, rfl⟩
    · exact ⟨_, ⟨words, given, hgives, .inr ⟨hrest, rfl⟩⟩, rfl⟩

/-- **The command that is read**, out of the options on both sides of the name of its subcommand. -/
theorem parse_eq_ok_iff (args : List String) (command : Command) :
    parse args = .ok command ↔
      ∃ words name rest sub before after,
        args = words ++ name :: rest ∧ subcommands.lookup name = some sub ∧
        Gives commonSwitches words before ∧ GivesBehind sub.switches rest after ∧
        finish sub before after = .ok command := by
  rw [parse, parseFrom_eq_ok_iff]
  constructor
  · intro ⟨words, name, rest, sub, last, first, after, hargs, hlast, hname, hfirst, hafter, hfinish⟩
    obtain ⟨hgives, hlookup⟩ :=
      (gives_iff_foldlM words name sub _).mp ⟨last, first, hlast, hname, hfirst, rfl⟩
    have hbehind := (givesBehind_iff_ends sub rest _).mp ⟨after, hafter, rfl⟩
    exact ⟨words, name, rest, sub, _, _, hargs, hlookup, hgives, hbehind, hfinish⟩
  · intro ⟨words, name, rest, sub, before, given, hargs, hlookup, hgives, hbehind, hfinish⟩
    obtain ⟨last, first, hlast, hname, hfirst, hbefore⟩ :=
      (gives_iff_foldlM words name sub before).mpr ⟨hgives, hlookup⟩
    obtain ⟨after, hafter, hgiven⟩ := (givesBehind_iff_ends sub rest given).mpr hbehind
    rw [← hbefore, ← hgiven] at hfinish
    exact ⟨words, name, rest, sub, last, first, after, hargs, hlast, hname, hfirst, hafter, hfinish⟩

/-! ## 2. Extractions -/

/-- The settings of an extraction, out of the options on both sides of its name. -/
structure ExtractSettings (before after : Given) (config : Option String) (input output : String)
    (abortRun : Bool) (threads : Option UInt64) : Prop where
  /-- A file that is named behind the subcommand counts before one that is named in front of it. -/
  config : ∀ path, config = some path ↔
    ("config", path) ∈ after ∨ ("config", path) ∈ before ∧ "config" ∉ after.map (·.1)
  input : ("input", input) ∈ after
  output : ("output", output) ∈ after
  abortRun : abortRun = true ↔ "abort-run" ∈ after.map (·.1)
  threads : ∀ n, threads = some n ↔ ∃ value, ("threads", value) ∈ after ∧ IsCount value n

/-- **The arguments ask for an extraction** with these settings. -/
def AsksExtract (args : List String) (config : Option String) (input output : String)
    (abortRun : Bool) (threads : Option UInt64) : Prop :=
  ∃ words rest before after, args = words ++ "extract" :: rest ∧
    Gives commonSwitches words before ∧ GivesBehind Subcommand.extract.switches rest after ∧
    ExtractSettings before after config input output abortRun threads

theorem required_eq_ok_iff {given : Given} (h : (given.map (·.1)).Nodup) (name value : String) :
    required given name = .ok value ↔ (name, value) ∈ given := by
  rw [← lookup_eq_some_iff_mem h, required]
  cases given.lookup name <;> simp

theorem Gives.nodup {switches : List Switch} {args : List String} {given : Given}
    (h : Gives switches args given) : (given.map (·.1)).Nodup := by
  obtain ⟨_, -, -, hnodup, -⟩ := h
  exact hnodup

theorem GivesBehind.nodup {switches : List Switch} {args : List String} {given : Given}
    (h : GivesBehind switches args given) : (given.map (·.1)).Nodup := by
  rcases h with h | ⟨_, -, h⟩
  · exact h.nodup
  · exact h.nodup

/-- The settings are those that the options have under their names. -/
theorem finish_eq_extract_iff {before after : Given} (hbefore : (before.map (·.1)).Nodup)
    (hafter : (after.map (·.1)).Nodup) (sub : Subcommand) (config : Option String)
    (input output : String) (abortRun : Bool) (threads : Option UInt64) :
    finish sub before after = .ok (.extract config input output abortRun threads) ↔
      sub = .extract ∧ ExtractSettings before after config input output abortRun threads := by
  cases sub with
  | help => exact iff_of_false nofun nofun
  | version => exact iff_of_false nofun nofun
  | classify =>
    refine iff_of_false ?_ nofun
    intro h
    obtain ⟨_, -, hcommand⟩ := except_bind_eq_ok_iff.mp h
    cases hcommand
  | extract =>
    have hconfig : (∀ path, config = some path ↔
        ("config", path) ∈ after ∨ ("config", path) ∈ before ∧ "config" ∉ after.map (·.1)) ↔
        config = (after.lookup "config").or (before.lookup "config") := by
      rw [Option.ext_iff]
      refine forall_congr' fun path => ?_
      rw [Option.or_eq_some_iff, lookup_eq_some_iff_mem hafter, lookup_eq_some_iff_mem hbefore,
        ← Option.not_isSome_iff_eq_none, lookup_isSome_iff_mem, and_comm (a := _ ∉ _)]
    have hthreads : (∀ n, threads = some n ↔ ∃ value, ("threads", value) ∈ after ∧
        IsCount value n) ↔ threads = (after.lookup "threads").bind count? := by
      rw [Option.ext_iff]
      refine forall_congr' fun n => ?_
      simp only [Option.bind_eq_some_iff, lookup_eq_some_iff_mem hafter, count?_eq_some_iff]
    have habort : (abortRun = true ↔ "abort-run" ∈ after.map (·.1)) ↔
        abortRun = (after.lookup "abort-run").isSome := by
      rw [← lookup_isSome_iff_mem]
      exact Bool.eq_iff_iff.symm
    constructor
    · intro h
      obtain ⟨input', hinput, h⟩ := except_bind_eq_ok_iff.mp h
      obtain ⟨output', houtput, h⟩ := except_bind_eq_ok_iff.mp h
      cases h
      exact ⟨rfl, hconfig.mpr rfl, (required_eq_ok_iff hafter _ _).mp hinput,
        (required_eq_ok_iff hafter _ _).mp houtput, habort.mpr rfl, hthreads.mpr rfl⟩
    · intro ⟨_, h⟩
      refine except_bind_eq_ok_iff.mpr ⟨input, (required_eq_ok_iff hafter _ _).mpr h.input, ?_⟩
      refine except_bind_eq_ok_iff.mpr ⟨output, (required_eq_ok_iff hafter _ _).mpr h.output, ?_⟩
      rw [hconfig.mp h.config, habort.mp h.abortRun, hthreads.mp h.threads]
      rfl

theorem lookup_subcommands_eq_extract_iff (name : String) :
    subcommands.lookup name = some .extract ↔ name = "extract" := by
  rw [lookup_eq_some_iff_mem (by decide)]
  simp [subcommands]

/-- **The arguments are read as an extraction exactly if they ask for it.** -/
theorem parse_eq_extract_iff (args : List String) (config : Option String) (input output : String)
    (abortRun : Bool) (threads : Option UInt64) :
    parse args = .ok (.extract config input output abortRun threads) ↔
      AsksExtract args config input output abortRun threads := by
  rw [parse_eq_ok_iff]
  constructor
  · intro ⟨words, name, rest, sub, before, after, hargs, hlookup, hgives, hbehind, hfinish⟩
    obtain ⟨rfl, hsettings⟩ :=
      (finish_eq_extract_iff hgives.nodup hbehind.nodup _ _ _ _ _ _).mp hfinish
    rw [(lookup_subcommands_eq_extract_iff name).mp hlookup] at hargs
    exact ⟨words, rest, before, after, hargs, hgives, hbehind, hsettings⟩
  · intro ⟨words, rest, before, after, hargs, hgives, hbehind, hsettings⟩
    exact ⟨words, "extract", rest, .extract, before, after, hargs, rfl, hgives, hbehind,
      (finish_eq_extract_iff hgives.nodup hbehind.nodup _ _ _ _ _ _).mpr ⟨rfl, hsettings⟩⟩

/-! ## 3. The flag that ends a run -/

/-- The argument that spells an option by its name. -/
def dashed (name : String) : String := String.ofList ('-' :: '-' :: name.toList)

theorem not_isValue_dashed (name : String) : ¬ IsValue (dashed name) := by
  have hchars : (dashed name).toList = '-' :: '-' :: name.toList := String.toList_ofList
  intro h
  rcases h with h | h
  · rw [h] at hchars
    exact absurd (congrArg List.length hchars) (by simp)
  · rw [hchars] at h
    exact h rfl

section

variable {switches : List Switch}

/-- An option that is spelled by a letter has one. -/
theorem Letters.letter_isSome {cs : List Char} {options : List (Switch × String)}
    {left : Option Switch} (h : Letters switches cs options left) :
    ∀ o ∈ options, o.1 ∈ switches ∧ o.1.letter.isSome = true := by
  have hsome {s : Switch} {c : Char} (hletter : s.letter = some c) : s.letter.isSome = true := by
    rw [hletter]
    rfl
  induction h with
  | nil => simp
  | flag hs hletter _ _ ih => exact List.forall_mem_cons.mpr ⟨⟨hs, hsome hletter⟩, ih⟩
  | joined hs hletter => exact List.forall_mem_singleton.mpr ⟨hs, hsome hletter⟩
  | attached hs hletter => exact List.forall_mem_singleton.mpr ⟨hs, hsome hletter⟩
  | apart => simp

/-- An option that is left open takes a value. -/
theorem Letters.takes_value {cs : List Char} {options : List (Switch × String)}
    {left : Option Switch} (h : Letters switches cs options left) :
    ∀ s ∈ left, s ∈ switches ∧ s.form.isSome = true := by
  induction h with
  | nil => simp
  | flag _ _ _ _ ih => exact ih
  | joined => simp
  | attached => simp
  | apart hs _ hform => simp [hs, hform]

theorem Word.takes_value {arg : String} {options : List (Switch × String)} {s : Switch}
    (h : Word switches arg options (some s)) : s ∈ switches ∧ s.form.isSome = true := by
  cases h with
  | named h =>
    cases h with
    | apart hs hform => exact ⟨hs, hform⟩
  | letters h => exact h.takes_value s rfl

theorem Word.mem_switches {arg : String} {options : List (Switch × String)} {left : Option Switch}
    (h : Word switches arg options left) : ∀ o ∈ options, o.1 ∈ switches := by
  cases h with
  | named h => cases h <;> simp [*]
  | letters h => exact fun o ho => (h.letter_isSome o ho).1

/-- Only options that can be given are spelled. -/
theorem Spells.mem_switches {args : List String} {options : List (Switch × String)}
    (h : Spells switches args options) : ∀ o ∈ options, o.1 ∈ switches := by
  induction h with
  | nil => simp
  | closed hword _ ih =>
    intro o ho
    exact (List.mem_append.mp ho).elim (hword.mem_switches o) (ih o)
  | apart hword _ _ ih =>
    intro o ho
    rcases List.mem_append.mp ho with ho | ho
    · exact hword.mem_switches o ho
    · rcases List.mem_cons.mp ho with rfl | ho
      · exact hword.takes_value.1
      · exact ih o ho

variable (hswitches : Distinct switches) {name : String} (hequals : '=' ∉ name.toList)
  (hname : ∀ s ∈ switches, s.name = name → s.letter = none ∧ s.form = none)

include hswitches hequals hname

/-- An option without a letter and without a value is spelled by one argument only. -/
theorem Word.eq_dashed_iff {arg : String} {options : List (Switch × String)} {left : Option Switch}
    (h : Word switches arg options left) :
    arg = dashed name ↔ name ∈ (givenOf options).map (·.1) := by
  have hform {s : Switch} (hs : s ∈ switches) (hform : s.form.isSome = true) : s.name ≠ name := by
    intro heq
    rw [(hname s hs heq).2] at hform
    cases hform
  cases h with
  | @named cs _ _ h =>
    have hcs : String.ofList ('-' :: '-' :: cs) = dashed name ↔ cs = name.toList := by
      rw [dashed, String.ofList_inj, List.cons_inj_right, List.cons_inj_right]
    rw [hcs]
    cases h with
    | flag hs => simp [givenOf, String.toList_inj, eq_comm]
    | joined hs hsome value =>
      refine iff_of_false ?_ (by simpa [givenOf] using (hform hs hsome).symm)
      intro heq
      exact hequals (heq ▸ List.mem_append_right _ List.mem_cons_self)
    | apart hs hsome =>
      refine iff_of_false ?_ (by simp [givenOf])
      exact fun heq => hform hs hsome (String.toList_inj.mp heq)
  | letters h hne =>
    refine iff_of_false ?_ ?_
    · intro heq
      have hcs := List.cons.inj (String.ofList_inj.mp heq)
      rw [hcs.2] at h
      exact h.ne_dash hswitches rfl
    · intro hmem
      simp only [givenOf, List.map_map, List.mem_map] at hmem
      obtain ⟨o, ho, heq⟩ := hmem
      obtain ⟨hs, hletter⟩ := h.letter_isSome o ho
      rw [(hname o.1 hs heq).1] at hletter
      cases hletter

theorem Spells.dashed_mem_iff {args : List String} {options : List (Switch × String)}
    (h : Spells switches args options) :
    dashed name ∈ args ↔ name ∈ (givenOf options).map (·.1) := by
  induction h with
  | nil => simp [givenOf]
  | closed hword _ ih =>
    have hhead := hword.eq_dashed_iff hswitches hequals hname
    rw [givenOf, List.map_append, List.map_append, List.mem_append, List.mem_cons, eq_comm, hhead,
      ih]
    rfl
  | @apart arg value args options more s hword hvalue _ ih =>
    have hhead := hword.eq_dashed_iff hswitches hequals hname
    have hs : s.name ≠ name := by
      intro heq
      obtain ⟨hs, hform⟩ := hword.takes_value
      rw [(hname s hs heq).2] at hform
      cases hform
    have hvalue' : value ≠ dashed name := by
      rintro rfl
      exact not_isValue_dashed name hvalue
    rw [List.mem_cons, List.mem_cons, eq_comm, hhead, ih]
    simp [givenOf, hvalue'.symm, hs.symm]

end

/-- **An extraction is asked to stop at the first failure by one argument only.** -/
theorem AsksExtract.abortRun_iff {args : List String} {config : Option String}
    {input output : String} {abortRun : Bool} {threads : Option UInt64}
    (h : AsksExtract args config input output abortRun threads) :
    abortRun = true ↔ "--abort-run" ∈ args := by
  obtain ⟨words, rest, before, after, rfl, hgives, hbehind, hsettings⟩ := h
  have hequals : '=' ∉ "abort-run".toList := by decide +kernel
  have hspelled {words : List String} {given : Given}
      (hgives : Gives Subcommand.extract.switches words given) :
      "--abort-run" ∈ words ↔ "abort-run" ∈ given.map (·.1) := by
    obtain ⟨options, hspells, rfl, -⟩ := hgives
    exact hspells.dashed_mem_iff (Subcommand.distinct_switches _) hequals (by decide)
  have hafter : "--abort-run" ∈ rest ↔ "abort-run" ∈ after.map (·.1) := by
    rcases hbehind with hgives | ⟨words, rfl, hgives⟩
    · exact hspelled hgives
    · rw [← hspelled hgives]
      simp
  have hbefore : "--abort-run" ∉ words := by
    obtain ⟨options, hspells, -⟩ := hgives
    intro hmem
    have hnames := (hspells.dashed_mem_iff distinct_commonSwitches hequals (by decide)).mp hmem
    simp only [givenOf, List.map_map, List.mem_map] at hnames
    obtain ⟨o, ho, hname⟩ := hnames
    have hno : ∀ s ∈ commonSwitches, s.name ≠ "abort-run" := by decide
    exact hno o.1 (hspells.mem_switches o ho) hname
  rw [hsettings.abortRun, List.mem_append, List.mem_cons, ← hafter]
  simp [hbefore]

end ModifierFacts.CommandLine
