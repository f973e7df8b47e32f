import ModifierFacts.Proofs.Json.Written

/-!
# Blanks between tokens

Blanks, tabs and line ends may stand in front of every token and behind the last one; what is read
are the tokens. So a document over several lines is the same one as on a single line.

* `Token.Literal`: characters that are one token, whatever may follow it;
* `Spaced`: a text of given tokens, with blanks wherever they may stand;
* **`Spaced.read_eq`**: texts of the same tokens are the same document;
* **`Value.read_spaced`**, `Value.read_pretty`: a written value is read back however it is laid out.
-/

namespace ModifierFacts.Json

/-! ## 1. Texts with blanks -/

/-- Can these characters follow the token? What follows a number must not go on with it. -/
def Token.EndsBefore (rest : List Char) : Token → Prop
  | .number _ => EndsNumeral rest
  | _ => True

theorem endsNumeral_of_isBlank {c : Char} (hc : isBlank c = true) (rest : List Char) :
    EndsNumeral (c :: rest) := by
  simp only [isBlank, Bool.or_eq_true, decide_eq_true_eq] at hc
  refine endsNumeral_cons rest ?_
  rcases hc with ((rfl | rfl) | rfl) | rfl <;> decide

/-- These characters are the token, whatever may follow it. -/
structure Token.Literal (t : Token) (lit : List Char) : Prop where
  begins : ∃ c cs, lit = c :: cs ∧ isBlank c = false
  next : ∀ rest, t.EndsBefore rest → nextToken (lit ++ rest) = some (t, rest)

/-- A text of these tokens: a literal of each, with blanks before, between and behind them. -/
inductive Spaced : List Token → List Char → Prop where
  | nil : Spaced [] []
  | blank {ts : List Token} {c : Char} {cs : List Char} (hc : isBlank c = true) (h : Spaced ts cs) :
      Spaced ts (c :: cs)
  | token {t : Token} {ts : List Token} {lit cs : List Char} (ht : t.Literal lit)
      (hcs : t.EndsBefore cs) (h : Spaced ts cs) : Spaced (t :: ts) (lit ++ cs)

/-- A blank in front makes no difference. -/
theorem tokens_blank {c : Char} (hc : isBlank c = true) (cs : List Char) :
    tokens (c :: cs) = tokens cs := by
  rw [tokens, if_pos hc]

namespace Spaced

variable {ts : List Token} {cs cs' : List Char}

/-- **A text is cut into its tokens, and the blanks are left out.** -/
theorem tokens_eq (h : Spaced ts cs) : tokens cs = ts := by
  induction h with
  | nil => rw [tokens]
  | blank hc _ ih => rw [tokens_blank hc, ih]
  | @token t ts lit cs ht hcs _ ih =>
    have hnext := ht.next cs hcs
    obtain ⟨c, lit, rfl, hc⟩ := ht.begins
    rw [← ih]
    exact tokens_of_nextToken hc hnext

/-- **Blanks between tokens make no difference.** -/
theorem read_eq (h : Spaced ts cs) (h' : Spaced ts cs') :
    Document.read (String.ofList cs) = Document.read (String.ofList cs') := by
  rw [Document.read, Document.read, String.toList_ofList, String.toList_ofList, h.tokens_eq,
    h'.tokens_eq]

theorem blanks {bs : List Char} (hbs : ∀ b ∈ bs, isBlank b = true) (h : Spaced ts cs) :
    Spaced ts (bs ++ cs) := by
  induction bs with
  | nil => exact h
  | cons b bs ih =>
    rw [List.forall_mem_cons] at hbs
    exact .blank hbs.1 (ih hbs.2)

/-- A bracket or separator. -/
theorem mark {c : Char} {t : Token} (h : Spaced ts cs) (hc : isBlank c = false)
    (hnumber : ∀ rest, t.EndsBefore rest) (hnext : ∀ rest, nextToken (c :: rest) = some (t, rest)) :
    Spaced (t :: ts) (c :: cs) :=
  .token ⟨⟨c, [], rfl, hc⟩, fun rest _ => hnext rest⟩ (hnumber cs) h

theorem comma (h : Spaced ts cs) : Spaced (.comma :: ts) (',' :: cs) :=
  h.mark (by decide) (fun _ => trivial) fun _ => rfl

theorem colon (h : Spaced ts cs) : Spaced (.colon :: ts) (':' :: cs) :=
  h.mark (by decide) (fun _ => trivial) fun _ => rfl

theorem openArray (h : Spaced ts cs) : Spaced (.openArray :: ts) ('[' :: cs) :=
  h.mark (by decide) (fun _ => trivial) fun _ => rfl

theorem closeArray (h : Spaced ts cs) : Spaced (.closeArray :: ts) (']' :: cs) :=
  h.mark (by decide) (fun _ => trivial) fun _ => rfl

theorem openObject (h : Spaced ts cs) : Spaced (.openObject :: ts) ('\x7b' :: cs) :=
  h.mark (by decide) (fun _ => trivial) fun _ => rfl

theorem closeObject (h : Spaced ts cs) : Spaced (.closeObject :: ts) ('\x7d' :: cs) :=
  h.mark (by decide) (fun _ => trivial) fun _ => rfl

theorem quoted (s : String) (h : Spaced ts cs) : Spaced (.text (some s) :: ts) (quote s ++ cs) :=
  .token ⟨⟨'"', _, rfl, by decide⟩, fun rest _ => nextToken_quote s rest⟩ trivial h

theorem natural {n : Nat} (hn : n < wordLimit) (hcs : EndsNumeral cs) (h : Spaced ts cs) :
    Spaced (.number (some (.integer n)) :: ts) (Nat.toDigits 10 n ++ cs) := by
  refine .token ⟨?_, fun rest hrest => nextToken_toDigits hn hrest⟩ hcs h
  obtain ⟨d, ds, hds, hd⟩ := exists_toDigits_eq_cons n
  exact ⟨d, ds, hds, isBlank_of_isDigit hd⟩

theorem newLine (level : Nat) (h : Spaced ts cs) : Spaced ts (newLine level ++ cs) := by
  refine h.blanks ?_
  intro b hb
  rw [Json.newLine, List.mem_cons, List.mem_replicate] at hb
  rcases hb with rfl | ⟨-, rfl⟩ <;> decide

end Spaced

/-! ## 2. Written values -/

mutual

/-- A value over several lines is a text of its tokens. -/
theorem Value.spaced_pretty : ∀ (v : Value) (level : Nat) {ts : List Token} {rest : List Char},
    v.FitsWords → EndsNumeral rest → Spaced ts rest →
      Spaced (v.tokens ++ ts) (v.prettyChars level ++ rest)
  | .null, level, ts, rest, _, _, h =>
    .token ⟨⟨'n', _, rfl, by decide⟩, fun _ _ => rfl⟩ trivial h
  | .boolean true, level, ts, rest, _, _, h =>
    .token ⟨⟨'t', _, rfl, by decide⟩, fun _ _ => rfl⟩ trivial h
  | .boolean false, level, ts, rest, _, _, h =>
    .token ⟨⟨'f', _, rfl, by decide⟩, fun _ _ => rfl⟩ trivial h
  | .natural n, level, ts, rest, hv, hrest, h => h.natural hv hrest
  | .text s, level, ts, rest, _, _, h => h.quoted s
  | .array [], level, ts, rest, _, _, h => h.closeArray.openArray
  | .object [], level, ts, rest, _, _, h => h.closeObject.openObject
  | .array (v :: vs), level, ts, rest, hv, _, h => by
    have hend : EndsNumeral (newLine level ++ ']' :: rest) := endsNumeral_of_isBlank (by decide) _
    have hitems := spaced_prettyItems (v :: vs) level hv hend (h.closeArray.newLine level)
    simpa [Value.tokens, Value.prettyChars] using hitems.openArray
  | .object (m :: ms), level, ts, rest, hv, _, h => by
    have hend : EndsNumeral (newLine level ++ '\x7d' :: rest) :=
      endsNumeral_of_isBlank (by decide) _
    have hmembers := spaced_prettyMembers (m :: ms) level hv hend (h.closeObject.newLine level)
    simpa [Value.tokens, Value.prettyChars] using hmembers.openObject

theorem spaced_prettyItems : ∀ (vs : List Value) (level : Nat) {ts : List Token}
    {rest : List Char}, ItemsFitWords vs → EndsNumeral rest → Spaced ts rest →
      Spaced (itemTokens vs ++ ts) (prettyItems level vs ++ rest)
  | [], level, ts, rest, _, _, h => h
  | [v], level, ts, rest, hv, hrest, h => by
    have hfirst := (v.spaced_pretty (level + 1) hv.1 hrest h).newLine (level + 1)
    simpa [itemTokens, prettyItems] using hfirst
  | v :: w :: vs, level, ts, rest, hv, hrest, h => by
    have hvs := spaced_prettyItems (w :: vs) level hv.2 hrest h
    have hend : EndsNumeral (',' :: (prettyItems level (w :: vs) ++ rest)) :=
      endsNumeral_separator _ (by simp)
    have hfirst := (v.spaced_pretty (level + 1) hv.1 hend hvs.comma).newLine (level + 1)
    simpa [itemTokens, prettyItems] using hfirst

theorem spaced_prettyMembers : ∀ (ms : List (String × Value)) (level : Nat) {ts : List Token}
    {rest : List Char}, MembersFitWords ms → EndsNumeral rest → Spaced ts rest →
      Spaced (memberTokens ms ++ ts) (prettyMembers level ms ++ rest)
  | [], level, ts, rest, _, _, h => h
  | [(key, v)], level, ts, rest, hv, hrest, h => by
    have hvalue := (v.spaced_pretty (level + 1) hv.1 hrest h).blank (c := ' ') (by decide)
    have hfirst := (hvalue.colon.quoted key).newLine (level + 1)
    simpa [memberTokens, prettyMembers] using hfirst
  | (key, v) :: m :: ms, level, ts, rest, hv, hrest, h => by
    have hms := spaced_prettyMembers (m :: ms) level hv.2 hrest h
    have hend : EndsNumeral (',' :: (prettyMembers level (m :: ms) ++ rest)) :=
      endsNumeral_separator _ (by simp)
    have hvalue :=
      (v.spaced_pretty (level + 1) hv.1 hend hms.comma).blank (c := ' ') (by decide)
    have hfirst := (hvalue.colon.quoted key).newLine (level + 1)
    simpa [memberTokens, prettyMembers] using hfirst

end

/-- **A written value is read back however it is laid out.** -/
theorem Value.read_spaced {v : Value} {cs : List Char} (h : Spaced v.tokens cs) :
    Document.read (String.ofList cs) = ⟨v.toNode, true⟩ := by
  have hfold := v.foldl_tokens [] []
  rw [List.append_nil] at hfold
  rw [Document.read, String.toList_ofList, h.tokens_eq, Document.ofTokens, hfold]
  rfl

/-- A value over several lines is the document of its tree, with blanks behind it or without. -/
theorem Value.read_pretty {v : Value} (h : v.FitsWords) (bs : List Char)
    (hbs : ∀ b ∈ bs, isBlank b = true) :
    Document.read (v.pretty ++ String.ofList bs) = ⟨v.toNode, true⟩ := by
  have hblanks : Spaced [] bs := by simpa using Spaced.nil.blanks hbs
  have hend : EndsNumeral bs := by
    cases bs with
    | nil => exact endsNumeral_nil
    | cons b bs => exact endsNumeral_of_isBlank (hbs b List.mem_cons_self) bs
  have hspaced := v.spaced_pretty 0 h hend hblanks
  rw [List.append_nil] at hspaced
  rw [Value.pretty, ← String.ofList_append]
  exact Value.read_spaced hspaced

end ModifierFacts.Json
