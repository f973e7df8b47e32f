import ModifierFacts.CommandLine.Arguments

/-!
# How options are spelled

The grammar of options, apart from how they are read.

* `IsCount`, `IsValue`, `Switch.Takes`: what can be the value of an option;
* `Word`: one argument that spells options, by a name or by letters, and perhaps leaves the value of
  the last one to the next argument;
* `Spells`: arguments that spell options;
* **`Gives`**: each option once, with a value that fits;
* `Distinct`: options that cannot be taken for each other.
-/

namespace ModifierFacts.CommandLine

/-! ## 1. Values -/

/-- A count: decimal digits, before which a plus may stand, of a number of 64 bits. -/
def IsCount (s : String) (n : UInt64) : Prop :=
  ∃ ds, (s.toList = ds ∨ s.toList = '+' :: ds) ∧ ds ≠ [] ∧ (∀ c ∈ ds, c.isDigit = true) ∧
    n.toNat = Nat.ofDigitChars 10 ds 0

/-- The argument can be the value of the option in front of it: it looks like no option. -/
def IsValue (arg : String) : Prop := arg = "-" ∨ arg.toList.head? ≠ some '-'

/-- The value fits the option, if that takes one. -/
def Switch.Takes (s : Switch) (value : String) : Prop :=
  match s.form with
  | none => True
  | some .path => value ≠ ""
  | some .count => ∃ n, IsCount value n

theorem countDigits_of_isDigit {ds : List Char} (h : ∀ c ∈ ds, c.isDigit = true) :
    countDigits ds = ds := by
  unfold countDigits
  split
  · exact absurd (h '+' List.mem_cons_self) (by decide)
  · rfl

/-- **A count is read as its number.** -/
theorem count?_eq_some_iff (s : String) (n : UInt64) : count? s = some n ↔ IsCount s n := by
  have hread : count? s = some n ↔ countDigits s.toList ≠ [] ∧
      (∀ c ∈ countDigits s.toList, c.isDigit = true) ∧
      n.toNat = Nat.ofDigitChars 10 (countDigits s.toList) 0 := by
    unfold count?
    generalize countDigits s.toList = ds
    have hlimit : Nat.pow 2 64 = 2 ^ 64 := rfl
    have hbad : (ds.isEmpty || !ds.all Char.isDigit ||
        decide (Nat.pow 2 64 ≤ Nat.ofDigitChars 10 ds 0)) = true ↔
        ¬ (ds ≠ [] ∧ (∀ c ∈ ds, c.isDigit = true) ∧ Nat.ofDigitChars 10 ds 0 < 2 ^ 64) := by
      rw [hlimit, ← List.all_eq_true, Bool.or_eq_true, Bool.or_eq_true, Bool.not_eq_true',
        ← Bool.not_eq_true, decide_eq_true_eq, List.isEmpty_iff]
      by_cases hnil : ds = []
      · simp [hnil]
      · by_cases hall : ds.all Char.isDigit = true
        · simp only [hnil, hall, not_true_eq_false, false_or, ne_eq, not_false_eq_true, true_and]
          omega
        · simp [hall]
    dsimp only
    by_cases hvalid : ds ≠ [] ∧ (∀ c ∈ ds, c.isDigit = true) ∧ Nat.ofDigitChars 10 ds 0 < 2 ^ 64
    · obtain ⟨hnil, hall, hfits⟩ := hvalid
      rw [if_neg (by rw [hbad]; exact fun h => h ⟨hnil, hall, hfits⟩), Option.some.injEq,
        ← UInt64.toNat_inj, UInt64.toNat_ofNat', Nat.mod_eq_of_lt hfits, eq_comm]
      exact ⟨fun hn => ⟨hnil, hall, hn⟩, fun h => h.2.2⟩
    · rw [if_pos (hbad.mpr hvalid)]
      refine iff_of_false (Option.some_ne_none n).symm ?_
      intro ⟨hnil, hall, hn⟩
      have hlt : n.toNat < 2 ^ 64 := n.toNat_lt
      exact hvalid ⟨hnil, hall, hn ▸ hlt⟩
  rw [hread]
  constructor
  · intro ⟨hnil, hall, hn⟩
    refine ⟨countDigits s.toList, ?_, hnil, hall, hn⟩
    cases hs : s.toList with
    | nil => exact .inl rfl
    | cons c cs =>
      by_cases hplus : c = '+'
      · exact .inr (by rw [hplus]; rfl)
      · refine .inl ?_
        unfold countDigits
        split
        · rename_i heq
          exact absurd (List.cons.inj heq).1 hplus
        · rfl
  · intro ⟨ds, hs, hnil, hall, hn⟩
    have hdigits : countDigits s.toList = ds := by
      rcases hs with hs | hs
      · rw [hs, countDigits_of_isDigit hall]
      · rw [hs]
        rfl
    rw [hdigits]
    exact ⟨hnil, hall, hn⟩

theorem isValue_iff (arg : String) : Side.isValue arg = true ↔ IsValue arg := by
  have hdash : arg.startsWith "-" = true ↔ arg.toList.head? = some '-' := by
    rw [String.startsWith_string_iff]
    show ['-'] <+: arg.toList ↔ _
    cases arg.toList with
    | nil => simp
    | cons c cs => simp [List.cons_prefix_cons, eq_comm]
  unfold Side.isValue IsValue
  rw [Bool.or_eq_true, Bool.not_eq_true', ← Bool.not_eq_true, hdash, beq_iff_eq]
  exact Or.comm

/-! ## 2. The spelling of options -/

/-- What stands behind two dashes: the name of an option, the options with their values that it
spells, and the option whose value is the next argument, if there is one. An option that takes no
value has the empty one. -/
inductive Named (switches : List Switch) :
    List Char → List (Switch × String) → Option Switch → Prop where
  | flag {s : Switch} (hs : s ∈ switches) (hform : s.form = none) :
      Named switches s.name.toList [(s, "")] none
  /-- The value behind an equals sign. -/
  | joined {s : Switch} (hs : s ∈ switches) (hform : s.form.isSome = true) (value : List Char) :
      Named switches (s.name.toList ++ '=' :: value) [(s, String.ofList value)] none
  | apart {s : Switch} (hs : s ∈ switches) (hform : s.form.isSome = true) :
      Named switches s.name.toList [] (some s)

/-- What stands behind one dash: letters of options, of which the last one only can take a value. -/
inductive Letters (switches : List Switch) :
    List Char → List (Switch × String) → Option Switch → Prop where
  | nil : Letters switches [] [] none
  | flag {s : Switch} {c : Char} {cs : List Char} {options : List (Switch × String)}
      {left : Option Switch} (hs : s ∈ switches) (hletter : s.letter = some c)
      (hform : s.form = none) (h : Letters switches cs options left) :
      Letters switches (c :: cs) ((s, "") :: options) left
  /-- The value behind an equals sign. -/
  | joined {s : Switch} {c : Char} (hs : s ∈ switches) (hletter : s.letter = some c)
      (hform : s.form.isSome = true) (value : List Char) :
      Letters switches (c :: '=' :: value) [(s, String.ofList value)] none
  /-- The value directly behind the letter. -/
  | attached {s : Switch} {c d : Char} (hs : s ∈ switches) (hletter : s.letter = some c)
      (hform : s.form.isSome = true) (hd : d ≠ '=') (value : List Char) :
      Letters switches (c :: d :: value) [(s, String.ofList (d :: value))] none
  | apart {s : Switch} {c : Char} (hs : s ∈ switches) (hletter : s.letter = some c)
      (hform : s.form.isSome = true) : Letters switches [c] [] (some s)

/-- One argument that spells options. -/
inductive Word (switches : List Switch) :
    String → List (Switch × String) → Option Switch → Prop where
  | named {cs : List Char} {options : List (Switch × String)} {left : Option Switch}
      (h : Named switches cs options left) :
      Word switches (String.ofList ('-' :: '-' :: cs)) options left
  | letters {cs : List Char} {options : List (Switch × String)} {left : Option Switch}
      (h : Letters switches cs options left) (hne : cs ≠ []) :
      Word switches (String.ofList ('-' :: cs)) options left

/-- Arguments that spell options, and the options with their values, in this order. -/
inductive Spells (switches : List Switch) : List String → List (Switch × String) → Prop where
  | nil : Spells switches [] []
  | closed {arg : String} {args : List String} {options more : List (Switch × String)}
      (hword : Word switches arg options none) (h : Spells switches args more) :
      Spells switches (arg :: args) (options ++ more)
  /-- The value of an option as an argument of its own. -/
  | apart {arg value : String} {args : List String} {options more : List (Switch × String)}
      {s : Switch} (hword : Word switches arg options (some s)) (hvalue : IsValue value)
      (h : Spells switches args more) :
      Spells switches (arg :: value :: args) (options ++ (s, value) :: more)

/-- The names of options with their values. -/
def givenOf (options : List (Switch × String)) : Given := options.map fun o => (o.1.name, o.2)

/-- **The arguments give options**, each at most once and with a value that fits. None of them asks
for help. -/
def Gives (switches : List Switch) (args : List String) (given : Given) : Prop :=
  ∃ options, Spells switches args options ∧ given = givenOf options ∧ (given.map (·.1)).Nodup ∧
    ∀ o ∈ options, o.1.name ≠ "help" ∧ o.1.Takes o.2

/-! ## 3. Options that are told apart -/

/-- Options are told apart by their names and by their letters, and neither is taken for something
else. -/
structure Distinct (switches : List Switch) : Prop where
  names : ∀ s ∈ switches, ∀ t ∈ switches, s.name = t.name → s = t
  letters : ∀ s ∈ switches, ∀ t ∈ switches, s.letter = t.letter → s.letter.isSome → s = t
  name_ne : ∀ s ∈ switches, s.name.toList ≠ []
  equals_notMem : ∀ s ∈ switches, '=' ∉ s.name.toList
  letter_ne : ∀ s ∈ switches, s.letter ≠ some '-'

theorem distinct_commonSwitches : Distinct commonSwitches where
  names := by decide
  letters := by decide
  name_ne := by decide +kernel
  equals_notMem := by decide +kernel
  letter_ne := by decide

theorem Subcommand.distinct_switches (sub : Subcommand) : Distinct sub.switches where
  names := by cases sub <;> decide
  letters := by cases sub <;> decide
  name_ne := by cases sub <;> decide +kernel
  equals_notMem := by cases sub <;> decide +kernel
  letter_ne := by cases sub <;> decide

theorem find?_of_unique {α : Type} {p : α → Bool} {l : List α} {a : α} (ha : a ∈ l)
    (hp : p a = true) (hunique : ∀ b ∈ l, p b = true → b = a) : l.find? p = some a := by
  cases h : l.find? p with
  | none => exact absurd hp (List.find?_eq_none.mp h a ha)
  | some b => rw [hunique b (List.mem_of_find?_eq_some h) (List.find?_some h)]

namespace Distinct

variable {switches : List Switch} (h : Distinct switches)

include h

theorem find?_name {s : Switch} (hs : s ∈ switches) :
    (switches.find? fun t => t.name == s.name) = some s := by
  refine find?_of_unique hs (beq_self_eq_true _) ?_
  intro t ht heq
  exact h.names t ht s hs (beq_iff_eq.mp heq)

theorem find?_letter {s : Switch} {c : Char} (hs : s ∈ switches) (hc : s.letter = some c) :
    (switches.find? fun t => t.letter == some c) = some s := by
  refine find?_of_unique hs (by rw [hc, beq_self_eq_true]) ?_
  intro t ht heq
  have ht' : t.letter = some c := beq_iff_eq.mp heq
  exact h.letters t ht s hs (ht'.trans hc.symm) (by rw [ht']; rfl)

end Distinct

end ModifierFacts.CommandLine
