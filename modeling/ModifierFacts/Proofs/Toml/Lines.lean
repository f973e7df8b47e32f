import ModifierFacts.Proofs.Toml.Keys
import ModifierFacts.Proofs.Toml.Scalar

/-!
# Configuration texts of single lines

The texts that most configurations are: on every line an assignment to a bare key, or none, with
blanks where they may stand and perhaps a comment behind. Such a text is read as what its lines
assign, and it is malformed exactly if a key is assigned twice.

* `Toml.Line`: a line with an assignment or without; `Toml.textOf`: the text of lines;
* `Assignment.key?_key`: a bare key is read back;
* `statements?_line`: one line is one statement or none;
* **`Toml.parse_textOf`**: what a text of lines is read as.
-/

namespace ModifierFacts.Toml

/-! ## 1. Lines -/

/-- Blanks within a line. -/
def Blanks : Type := { cs : List Char // ∀ c ∈ cs, isBlank c = true }

namespace Blanks

/-- No blank. -/
def none : Blanks := ⟨[], by simp⟩

/-- One space. -/
def space : Blanks := ⟨[' '], by simp [isBlank]⟩

end Blanks

/-- An assignment to a bare key. -/
structure Assignment where
  key : List Char
  /-- The blanks before and behind the equals sign. -/
  before : Blanks
  behind : Blanks
  value : Plain
  key_ne_nil : key ≠ []
  isKeyChar_of_mem : ∀ c ∈ key, isKeyChar c = true

/-- A line. -/
structure Line where
  indent : Blanks
  assignment : Option Assignment
  trail : Blanks
  comment : Option { cs : List Char // ∀ c ∈ cs, isPlain c = true }

namespace Assignment

/-- The characters of an assignment. -/
def chars (a : Assignment) : List Char :=
  a.key ++ (a.before.1 ++ '=' :: (a.behind.1 ++ a.value.chars))

/-- What is assigned. -/
def entry (a : Assignment) : String × Item := (String.ofList a.key, .scalar a.value.scalar)

end Assignment

namespace Line

/-- The comment of a line, if it has one, and its line feed. -/
def closing (line : Line) : List Char := line.comment.elim ['\n'] fun cs => '#' :: cs.1 ++ ['\n']

/-- The end of a line, behind what is assigned. -/
def ending (line : Line) : List Char := line.trail.1 ++ line.closing

/-- The characters of a line. -/
def chars (line : Line) : List Char :=
  line.indent.1 ++ (line.assignment.elim [] (·.chars) ++ line.ending)

end Line

/-- The text of lines. -/
def textOf (lines : List Line) : String := String.ofList (lines.flatMap (·.chars))

/-- What the lines assign, in their order. -/
def entriesOf (lines : List Line) : Entries := lines.filterMap (·.assignment.map (·.entry))

/-! ## 2. Blanks and line ends -/

theorem skipBlanks_append (bs : Blanks) (cs : List Char) :
    skipBlanks (bs.1 ++ cs) = skipBlanks cs :=
  List.dropWhile_append_of_pos bs.2

theorem skipBlanks_cons {c : Char} (hc : isBlank c = false) (cs : List Char) :
    skipBlanks (c :: cs) = c :: cs := by
  rw [skipBlanks, List.dropWhile_cons_of_neg (by rw [hc]; exact Bool.false_ne_true)]

theorem lineEnd?_append (bs : Blanks) (cs : List Char) : lineEnd? (bs.1 ++ cs) = lineEnd? cs := by
  rw [lineEnd?, skipBlanks_append]
  rfl

theorem lineEnd?_closing (line : Line) (rest : List Char) :
    lineEnd? (line.closing ++ rest) = some rest := by
  unfold Line.closing
  cases line.comment with
  | none => rfl
  | some cs =>
    have hskip : (cs.1 ++ '\n' :: rest).dropWhile isPlain = '\n' :: rest := by
      rw [List.dropWhile_append_of_pos cs.2, List.dropWhile_cons_of_neg (by decide)]
    have hchars : '#' :: cs.1 ++ ['\n'] ++ rest = '#' :: (cs.1 ++ '\n' :: rest) := by simp
    show lineEnd? ('#' :: cs.1 ++ ['\n'] ++ rest) = _
    rw [hchars, lineEnd?, skipBlanks_cons (by decide), skipComment, hskip]
    rfl

/-- A line ends where it was written to end. -/
theorem lineEnd?_ending (line : Line) (rest : List Char) :
    lineEnd? (line.ending ++ rest) = some rest := by
  rw [Line.ending, List.append_assoc, lineEnd?_append, lineEnd?_closing]

theorem goesOn_ending (line : Line) (rest : List Char) : GoesOn (line.ending ++ rest) := by
  have hclosing : GoesOn (line.closing ++ rest) := by
    unfold Line.closing
    cases line.comment with
    | none => exact ⟨'\n', _, rfl, by decide⟩
    | some cs => exact ⟨'#', _, rfl, by decide⟩
  have htrail : ∀ c ∈ line.trail.1, isBlank c = true := line.trail.2
  rw [Line.ending, List.append_assoc]
  cases hcs : line.trail.1 with
  | nil => exact hclosing
  | cons c cs =>
    rw [hcs] at htrail
    have hc := htrail c List.mem_cons_self
    refine ⟨c, _, rfl, ?_⟩
    simp only [isBlank, Bool.or_eq_true, decide_eq_true_eq] at hc
    rcases hc with rfl | rfl <;> decide

/-! ## 3. Keys -/

/-- Blanks and marks of the language. -/
def marks : List Char := [' ', '\t', '=', '"', '\x27', '#', '[', '\n', '\r', '\ufeff']

/-- A character of a bare key is none of them. -/
theorem ne_of_isKeyChar {c d : Char} (hc : isKeyChar c = true) (hd : d ∈ marks) : c ≠ d := by
  have hmarks : marks.all (fun d => !isKeyChar d) = true := by decide
  have hno := List.all_eq_true.mp hmarks d hd
  intro h
  rw [← h, hc] at hno
  cases hno

theorem isBlank_of_isKeyChar {c : Char} (hc : isKeyChar c = true) : isBlank c = false := by
  have hspace : c ≠ ' ' := ne_of_isKeyChar hc (by decide)
  have htab : c ≠ '\t' := ne_of_isKeyChar hc (by decide)
  simp [isBlank, hspace, htab]

namespace Assignment

variable (a : Assignment)

theorem exists_key_eq_cons : ∃ c cs, a.key = c :: cs ∧ isKeyChar c = true := by
  obtain ⟨c, cs, hcs⟩ := List.exists_cons_of_ne_nil a.key_ne_nil
  refine ⟨c, cs, hcs, a.isKeyChar_of_mem c ?_⟩
  rw [hcs]
  exact List.mem_cons_self

/-- What follows a key does not go on with it. -/
theorem isKeyChar_head (rest : List Char) :
    ∀ c, (a.before.1 ++ '=' :: rest).head? = some c → isKeyChar c = false := by
  intro c hc
  have hblanks : ∀ c ∈ a.before.1, isBlank c = true := a.before.2
  cases hbefore : a.before.1 with
  | nil =>
    rw [hbefore] at hc
    cases hc
    decide
  | cons b bs =>
    rw [hbefore] at hc hblanks
    have hb := hblanks b List.mem_cons_self
    rw [← Option.some.inj hc]
    simp only [isBlank, Bool.or_eq_true, decide_eq_true_eq] at hb
    rcases hb with rfl | rfl <;> decide

/-- A bare key is read back. -/
theorem keyPart?_key (rest : List Char) :
    keyPart? (a.key ++ (a.before.1 ++ '=' :: rest)) =
      some (String.ofList a.key, a.before.1 ++ '=' :: rest) := by
  have hhead := a.isKeyChar_head rest
  have hall := a.isKeyChar_of_mem
  obtain ⟨c, cs, hcs, hc⟩ := a.exists_key_eq_cons
  have htake : (a.key ++ (a.before.1 ++ '=' :: rest)).takeWhile isKeyChar = a.key := by
    rw [List.takeWhile_append_of_pos hall]
    cases hnext : a.before.1 ++ '=' :: rest with
    | nil => simp
    | cons d ds => simp [hhead d (by rw [hnext]; rfl)]
  have hdrop : (a.key ++ (a.before.1 ++ '=' :: rest)).dropWhile isKeyChar =
      a.before.1 ++ '=' :: rest := by
    rw [List.dropWhile_append_of_pos hall]
    cases hnext : a.before.1 ++ '=' :: rest with
    | nil => rfl
    | cons d ds => simp [hhead d (by rw [hnext]; rfl)]
  unfold keyPart?
  split
  · rename_i heq
    rw [hcs] at heq
    exact absurd (List.cons.inj heq).1 (ne_of_isKeyChar hc (by decide))
  · rename_i heq
    rw [hcs] at heq
    exact absurd (List.cons.inj heq).1 (ne_of_isKeyChar hc (by decide))
  · rw [htake, hdrop, hcs]

theorem key?_key (rest : List Char) :
    key? (a.key ++ (a.before.1 ++ '=' :: rest)) =
      some (([], String.ofList a.key), '=' :: rest) := by
  obtain ⟨c, cs, hcs, hc⟩ := a.exists_key_eq_cons
  have hblank : skipBlanks (a.key ++ (a.before.1 ++ '=' :: rest)) =
      a.key ++ (a.before.1 ++ '=' :: rest) := by
    rw [hcs, List.cons_append, skipBlanks_cons (isBlank_of_isKeyChar hc)]
  have hequals : skipBlanks (a.before.1 ++ '=' :: rest) = '=' :: rest := by
    rw [skipBlanks_append, skipBlanks_cons (by decide)]
  obtain ⟨fuel, hfuel⟩ : ∃ fuel, (a.key ++ (a.before.1 ++ '=' :: rest)).length = fuel + 1 := by
    rw [hcs]
    exact ⟨_, rfl⟩
  rw [key?, hfuel, keyParts?, hblank, a.keyPart?_key]
  simp only [bind, Option.bind_some, hequals]
  rfl

end Assignment

/-! ## 4. Texts -/

/-- An assignment is read up to the end of its line. -/
theorem assignment?_line (a : Assignment) (line : Line) (root : Entries) (rest : List Char) :
    assignment? ⟨root, []⟩ (a.chars ++ (line.ending ++ rest)) =
      (assignIn [] [] a.entry.1 a.entry.2 root).map fun root => (⟨root, []⟩, rest) := by
  have hchars : a.chars ++ (line.ending ++ rest) = a.key ++ (a.before.1 ++ '=' ::
      (a.behind.1 ++ (a.value.chars ++ (line.ending ++ rest)))) := by
    simp [Assignment.chars]
  obtain ⟨c, cs, hcs, hblank, hbracket, hbrace⟩ := a.value.chars_eq_cons
  have hscalar := scalar?_plain a.value (goesOn_ending line rest)
  have hskip : skipBlanks (a.behind.1 ++ (a.value.chars ++ (line.ending ++ rest))) =
      a.value.chars ++ (line.ending ++ rest) := by
    rw [skipBlanks_append, hcs, List.cons_append, skipBlanks_cons hblank]
  have hvalue (fuel room : Nat) : value? (fuel + 1) room (a.value.chars ++ (line.ending ++ rest)) =
      some (.scalar a.value.scalar, line.ending ++ rest) := by
    rw [hcs, List.cons_append] at hscalar ⊢
    exact value?_of_scalar? hbracket hbrace hscalar fuel room
  rw [hchars, assignment?, a.key?_key]
  simp only [bind, Option.bind_some, expect?, if_true, hskip, hvalue, lineEnd?_ending]
  exact Option.map_eq_bind.symm

theorem statements?_append (bs : Blanks) (fuel : Nat) (state : State) (cs : List Char) :
    statements? (fuel + 1) state (bs.1 ++ cs) = statements? (fuel + 1) state cs := by
  rw [statements?, statements?, skipBlanks_append]

/-- Where a bare key stands, an assignment does. -/
theorem statements?_of_key {c : Char} (hc : isKeyChar c = true) (fuel : Nat) (state : State)
    (cs : List Char) : statements? (fuel + 1) state (c :: cs) =
      (assignment? state (c :: cs)).bind fun p => statements? fuel p.1 p.2 := by
  rw [statements?, skipBlanks_cons (isBlank_of_isKeyChar hc)]
  split
  · rename_i heq
    cases heq
  · rename_i heq
    exact absurd (List.cons.inj heq).1 (ne_of_isKeyChar hc (by decide))
  · rename_i heq
    exact absurd (List.cons.inj heq).1 (ne_of_isKeyChar hc (by decide))
  · rename_i heq
    obtain ⟨rfl, rfl⟩ := List.cons.inj heq
    have hline : ¬ (c = '\n' ∨ c = '\r') :=
      not_or.mpr ⟨ne_of_isKeyChar hc (by decide), ne_of_isKeyChar hc (by decide)⟩
    rw [if_neg hline]
    rfl

/-- The end of a line is passed over. -/
theorem statements?_closing (line : Line) (fuel : Nat) (state : State) (rest : List Char) :
    statements? (fuel + 1) state (line.closing ++ rest) = statements? fuel state rest := by
  have hclosing := lineEnd?_closing line rest
  unfold Line.closing at hclosing ⊢
  cases hcomment : line.comment with
  | none => rfl
  | some cs =>
    rw [hcomment] at hclosing
    have hblanks : skipBlanks ('#' :: cs.1 ++ ['\n'] ++ rest) = '#' :: (cs.1 ++ ['\n'] ++ rest) :=
      skipBlanks_cons (by decide) _
    show statements? (fuel + 1) state ('#' :: cs.1 ++ ['\n'] ++ rest) = _
    rw [statements?, hblanks]
    show (lineEnd? ('#' :: (cs.1 ++ ['\n'] ++ rest))).bind (statements? fuel state) = _
    rw [show lineEnd? ('#' :: (cs.1 ++ ['\n'] ++ rest)) = some rest from hclosing]
    rfl

/-- What a line does to the root table. -/
def Line.assignTo (line : Line) (root : Entries) : Option Entries :=
  line.assignment.elim (some root) fun a => assignIn [] [] a.entry.1 a.entry.2 root

/-- **One line is one statement or none.** -/
theorem statements?_line (line : Line) (fuel : Nat) (root : Entries) (rest : List Char) :
    statements? (fuel + 1) ⟨root, []⟩ (line.chars ++ rest) =
      (line.assignTo root).bind fun root => statements? fuel ⟨root, []⟩ rest := by
  rw [Line.chars, List.append_assoc, List.append_assoc, statements?_append, Line.assignTo]
  cases line.assignment with
  | none =>
    show statements? (fuel + 1) _ (line.ending ++ rest) = _
    rw [Line.ending, List.append_assoc, statements?_append, statements?_closing]
    rfl
  | some a =>
    have hread := assignment?_line a line root rest
    obtain ⟨c, cs, hcs, hc⟩ := a.exists_key_eq_cons
    have hchars : a.chars = c :: (cs ++ (a.before.1 ++ '=' :: (a.behind.1 ++ a.value.chars))) := by
      rw [Assignment.chars, hcs, List.cons_append]
    show statements? (fuel + 1) _ (a.chars ++ (line.ending ++ rest)) = _
    rw [hchars, List.cons_append] at hread ⊢
    rw [statements?_of_key hc, hread]
    show _ = (assignIn [] [] a.entry.1 a.entry.2 root).bind _
    rw [Option.bind_map]
    rfl

/-- An assignment takes a key that is not there yet. -/
theorem assignIn_root (key : String) (item : Item) (root : Entries) :
    assignIn [] [] key item root =
      if (root.lookup key).isNone then some (root ++ [(key, item)]) else none := by
  cases h : root.lookup key <;> simp [assignIn, assign, descend, h]

theorem Line.length_chars_pos (line : Line) : 0 < line.chars.length := by
  have hclosing : 0 < line.closing.length := by
    unfold Line.closing
    cases line.comment <;> simp
  simp only [Line.chars, Line.ending, List.length_append]
  omega

theorem entriesOf_cons (line : Line) (lines : List Line) :
    entriesOf (line :: lines) = line.assignment.elim [] (fun a => [a.entry]) ++ entriesOf lines := by
  unfold entriesOf
  cases h : line.assignment <;> simp [h]

/-- The lines of a text are carried out one after the other. -/
theorem statements?_lines (lines : List Line) {fuel : Nat}
    (hfuel : (lines.flatMap (·.chars)).length < fuel) {root : Entries} (h : Keyed root)
    (state : State) :
    statements? fuel ⟨root, []⟩ (lines.flatMap (·.chars)) = some state ↔
      Keyed (root ++ entriesOf lines) ∧ state = ⟨root ++ entriesOf lines, []⟩ := by
  induction lines generalizing fuel root with
  | nil =>
    cases fuel with
    | zero => exact absurd hfuel (Nat.not_lt_zero _)
    | succ fuel =>
      have hread : statements? (fuel + 1) ⟨root, []⟩ [] = some ⟨root, []⟩ := rfl
      have hnone : entriesOf [] = [] := rfl
      rw [List.flatMap_nil, hread, hnone, List.append_nil, Option.some.injEq, eq_comm]
      exact (and_iff_right h).symm
  | cons line lines ih =>
    cases fuel with
    | zero => exact absurd hfuel (Nat.not_lt_zero _)
    | succ fuel =>
      have hpos := line.length_chars_pos
      rw [List.flatMap_cons, List.length_append] at hfuel
      have hrest : (lines.flatMap (·.chars)).length < fuel := by omega
      rw [List.flatMap_cons, statements?_line, entriesOf_cons, Line.assignTo]
      cases line.assignment with
      | none => exact ih hrest h
      | some a =>
        show (assignIn [] [] a.entry.1 a.entry.2 root).bind _ = _ ↔
          Keyed (root ++ ([a.entry] ++ entriesOf lines)) ∧
            state = ⟨root ++ ([a.entry] ++ entriesOf lines), []⟩
        rw [assignIn_root, ← List.append_assoc]
        cases hlookup : root.lookup a.entry.1 with
        | none => exact ih hrest (h.concat hlookup a.entry.2)
        | some item =>
          -- the key is there already, so neither side holds
          have hmem : a.entry.1 ∈ root.map (·.1) := by
            by_contra hnew
            rw [lookup_eq_none_iff_notMem.mpr hnew] at hlookup
            cases hlookup
          have hrepeated : ¬ Keyed (root ++ [a.entry] ++ entriesOf lines) := by
            intro hkeyed
            simp only [Keyed, List.map_append, List.nodup_append] at hkeyed
            exact hkeyed.1.2.2 a.entry.1 hmem a.entry.1 (by simp) rfl
          exact iff_of_false (by simp) fun hboth => hrepeated hboth.1

theorem head?_append_ne {c : Char} {cs ds : List Char} (hcs : cs.head? ≠ some c)
    (hds : ds.head? ≠ some c) : (cs ++ ds).head? ≠ some c := by
  cases cs with
  | nil => exact hds
  | cons => exact hcs

theorem head?_blanks_ne (bs : Blanks) : bs.1.head? ≠ some '\ufeff' := by
  intro h
  have hblank := bs.2 '\ufeff' (List.mem_of_head? h)
  exact absurd hblank (by decide)

/-- A line does not begin with a byte order mark. -/
theorem Line.head?_chars_ne (line : Line) : line.chars.head? ≠ some '\ufeff' := by
  have hclosing : line.closing.head? ≠ some '\ufeff' := by
    unfold Line.closing
    cases line.comment <;> simp
  have hassignment : (line.assignment.elim [] (·.chars)).head? ≠ some '\ufeff' := by
    cases line.assignment with
    | none => simp
    | some a =>
      obtain ⟨c, cs, hcs, hc⟩ := a.exists_key_eq_cons
      have hne : c ≠ '\ufeff' := ne_of_isKeyChar hc (by decide)
      show (a.key ++ _).head? ≠ _
      rw [hcs, List.cons_append, List.head?_cons]
      simpa using hne
  exact head?_append_ne (head?_blanks_ne line.indent)
    (head?_append_ne hassignment (head?_append_ne (head?_blanks_ne line.trail) hclosing))

theorem skipMark_lines (lines : List Line) :
    skipMark (lines.flatMap (·.chars)) = lines.flatMap (·.chars) := by
  cases lines with
  | nil => rfl
  | cons line lines =>
    have hhead := line.head?_chars_ne
    rw [List.flatMap_cons]
    unfold skipMark
    split
    · rename_i heq
      have hpos := line.length_chars_pos
      cases hcs : line.chars with
      | nil => simp [hcs] at hpos
      | cons c cs =>
        rw [hcs] at heq hhead
        exact absurd (congrArg some (List.cons.inj heq).1) hhead
    · rfl

/-- **A text of lines is read as what its lines assign**, and is malformed exactly if they assign
something to a key twice. -/
theorem parse_textOf (lines : List Line) (entries : Entries) :
    parse (textOf lines) = some entries ↔
      Keyed (entriesOf lines) ∧ entries = entriesOf lines := by
  have hread := statements?_lines lines (Nat.lt_succ_self _) keyed_nil
  simp only [List.nil_append] at hread
  rw [parse, textOf, String.toList_ofList, skipMark_lines, Option.map_eq_some_iff]
  constructor
  · intro ⟨state, hstate, hroot⟩
    obtain ⟨hkeyed, rfl⟩ := (hread state).mp hstate
    exact ⟨hkeyed, hroot.symm⟩
  · intro ⟨hkeyed, hentries⟩
    exact ⟨_, (hread _).mpr ⟨hkeyed, rfl⟩, hentries.symm⟩

end ModifierFacts.Toml
