import ModifierFacts.Json.Read
import ModifierFacts.Proofs.Json.Literal

/-!
# Written documents are read back

A value that was written is the document that is read, if its numbers have 64 bits. Between the two
stand the tokens: the text is cut into the tokens of the value, and these are put together to its
tree again.

* `Value.toNode`: the tree that a value is read as; `Value.tokens`: the tokens of its text;
* `Value.FitsWords`: every number of the value has 64 bits;
* `Value.tokens_chars`: the text of a value is cut into its tokens, whatever follows;
* `Value.foldl_tokens`: wherever a value is due, its tokens put its tree there;
* **`Value.read_toText`**: the text of a value is a document, and its tree is that of the value;
* **`Value.space_le_of_mem_chars`**: the text of a value has no control character, so it is one
  line.
-/

namespace ModifierFacts.Json

/-! ## 1. What a value is read as -/

mutual

/-- The tree that a written value is read as. -/
def Value.toNode : Value → Node
  | .null => .null
  | .boolean b => .boolean b
  | .natural n => .number (.integer n)
  | .text s => .text s
  | .array items => .array (itemNodes items) true
  | .object members => .object (memberNodes members) true

/-- The trees of items. -/
def itemNodes : List Value → List Node
  | [] => []
  | v :: vs => v.toNode :: itemNodes vs

/-- The trees of members, with their keys. -/
def memberNodes : List (String × Value) → List (Option String × Node)
  | [] => []
  | (key, v) :: ms => (some key, v.toNode) :: memberNodes ms

end

mutual

/-- The tokens of a written value. -/
def Value.tokens : Value → List Token
  | .null => [.null]
  | .boolean b => [.boolean b]
  | .natural n => [.number (some (.integer n))]
  | .text s => [.text (some s)]
  | .array items => .openArray :: itemTokens items ++ [.closeArray]
  | .object members => .openObject :: memberTokens members ++ [.closeObject]

/-- The tokens of items. -/
def itemTokens : List Value → List Token
  | [] => []
  | [v] => v.tokens
  | v :: vs => v.tokens ++ .comma :: itemTokens vs

/-- The tokens of members. -/
def memberTokens : List (String × Value) → List Token
  | [] => []
  | [(key, v)] => .text (some key) :: .colon :: v.tokens
  | (key, v) :: ms => .text (some key) :: .colon :: (v.tokens ++ .comma :: memberTokens ms)

end

mutual

/-- Every number of the value has 64 bits. -/
def Value.FitsWords : Value → Prop
  | .natural n => n < wordLimit
  | .array items => ItemsFitWords items
  | .object members => MembersFitWords members
  | .null | .boolean _ | .text _ => True

/-- Every number of the items has 64 bits. -/
def ItemsFitWords : List Value → Prop
  | [] => True
  | v :: vs => v.FitsWords ∧ ItemsFitWords vs

/-- Every number of the members has 64 bits. -/
def MembersFitWords : List (String × Value) → Prop
  | [] => True
  | (_, v) :: ms => v.FitsWords ∧ MembersFitWords ms

end

theorem itemNodes_eq_map (vs : List Value) : itemNodes vs = vs.map (·.toNode) := by
  induction vs with
  | nil => rfl
  | cons v vs ih => rw [itemNodes, ih, List.map_cons]

theorem itemsFitWords_iff {vs : List Value} : ItemsFitWords vs ↔ ∀ v ∈ vs, v.FitsWords := by
  induction vs with
  | nil => simp [ItemsFitWords]
  | cons v vs ih => rw [ItemsFitWords, ih, List.forall_mem_cons]

/-! ## 2. From the text to the tokens -/

/-- A token that begins with no blank is cut off. -/
theorem tokens_of_nextToken {c : Char} {cs rest : List Char} {t : Token}
    (hblank : isBlank c = false) (h : nextToken (c :: cs) = some (t, rest)) :
    tokens (c :: cs) = t :: tokens rest := by
  rw [tokens, if_neg (by rw [hblank]; exact Bool.false_ne_true)]
  split
  · rename_i hnone
    rw [h] at hnone
    cases hnone
  · rename_i hsome
    rw [h] at hsome
    obtain ⟨rfl, rfl⟩ := Prod.mk.inj (Option.some.inj hsome)
    rfl

theorem tokens_quote (s : String) (rest : List Char) :
    tokens (quote s ++ rest) = .text (some s) :: tokens rest :=
  tokens_of_nextToken (by decide) (nextToken_quote s rest)

theorem isBlank_of_isDigit {c : Char} (h : c.isDigit = true) : isBlank c = false := by
  rw [isBlank, ← Bool.not_eq_true]
  intro hblank
  simp only [Bool.or_eq_true, decide_eq_true_eq] at hblank
  rcases hblank with ((rfl | rfl) | rfl) | rfl <;> cases h

theorem tokens_toDigits {n : Nat} (hn : n < wordLimit) {rest : List Char}
    (hrest : EndsNumeral rest) :
    tokens (Nat.toDigits 10 n ++ rest) = .number (some (.integer n)) :: tokens rest := by
  have hnext := nextToken_toDigits hn hrest
  obtain ⟨d, ds, hds, hd⟩ := exists_toDigits_eq_cons n
  rw [hds] at hnext ⊢
  exact tokens_of_nextToken (isBlank_of_isDigit hd) hnext

/-- After an item or member comes a comma or a bracket, which ends a number. -/
theorem endsNumeral_separator {c : Char} (rest : List Char)
    (h : c = ',' ∨ c = ']' ∨ c = '\x7d') : EndsNumeral (c :: rest) := by
  refine endsNumeral_cons rest ?_
  rcases h with rfl | rfl | rfl <;> decide

theorem tokens_comma (cs : List Char) : tokens (',' :: cs) = .comma :: tokens cs :=
  tokens_of_nextToken (by decide) rfl

theorem tokens_colon (cs : List Char) : tokens (':' :: cs) = .colon :: tokens cs :=
  tokens_of_nextToken (by decide) rfl

mutual

/-- **The text of a value is cut into its tokens**, whatever follows. -/
theorem Value.tokens_chars : ∀ (v : Value) (rest : List Char), v.FitsWords → EndsNumeral rest →
    Json.tokens (v.chars ++ rest) = v.tokens ++ Json.tokens rest
  | .null, rest, _, _ => by
    rw [Value.chars, Value.tokens]
    exact tokens_of_nextToken (by decide) rfl
  | .boolean true, rest, _, _ => by
    rw [Value.chars, Value.tokens]
    exact tokens_of_nextToken (by decide) rfl
  | .boolean false, rest, _, _ => by
    rw [Value.chars, Value.tokens]
    exact tokens_of_nextToken (by decide) rfl
  | .natural n, rest, hv, hrest => by
    rw [Value.chars, Value.tokens]
    exact tokens_toDigits hv hrest
  | .text s, rest, _, _ => by
    rw [Value.chars, Value.tokens]
    exact tokens_quote s rest
  | .array items, rest, hv, _ => by
    have hitems := tokens_itemChars items (']' :: rest) hv (endsNumeral_separator _ (by simp))
    have hopen : Json.tokens ('[' :: (itemChars items ++ ']' :: rest)) =
        .openArray :: Json.tokens (itemChars items ++ ']' :: rest) :=
      tokens_of_nextToken (by decide) rfl
    have hclose : Json.tokens (']' :: rest) = .closeArray :: Json.tokens rest :=
      tokens_of_nextToken (by decide) rfl
    rw [hclose] at hitems
    rw [hitems] at hopen
    simpa [Value.chars, Value.tokens] using hopen
  | .object members, rest, hv, _ => by
    have hmembers := tokens_memberChars members ('\x7d' :: rest) hv
      (endsNumeral_separator _ (by simp))
    have hopen : Json.tokens ('\x7b' :: (memberChars members ++ '\x7d' :: rest)) =
        .openObject :: Json.tokens (memberChars members ++ '\x7d' :: rest) :=
      tokens_of_nextToken (by decide) rfl
    have hclose : Json.tokens ('\x7d' :: rest) = .closeObject :: Json.tokens rest :=
      tokens_of_nextToken (by decide) rfl
    rw [hclose] at hmembers
    rw [hmembers] at hopen
    simpa [Value.chars, Value.tokens] using hopen

theorem tokens_itemChars : ∀ (vs : List Value) (rest : List Char), ItemsFitWords vs →
    EndsNumeral rest → Json.tokens (itemChars vs ++ rest) = itemTokens vs ++ Json.tokens rest
  | [], rest, _, _ => rfl
  | [v], rest, hv, hrest => by
    rw [itemChars, itemTokens]
    exact v.tokens_chars rest hv.1 hrest
  | v :: w :: vs, rest, hv, hrest => by
    have hvs := tokens_itemChars (w :: vs) rest hv.2 hrest
    have hfirst := v.tokens_chars (',' :: (itemChars (w :: vs) ++ rest)) hv.1
      (endsNumeral_separator _ (by simp))
    rw [tokens_comma, hvs] at hfirst
    simpa [itemChars, itemTokens] using hfirst

theorem tokens_memberChars : ∀ (ms : List (String × Value)) (rest : List Char),
    MembersFitWords ms → EndsNumeral rest →
    Json.tokens (memberChars ms ++ rest) = memberTokens ms ++ Json.tokens rest
  | [], rest, _, _ => rfl
  | [(key, v)], rest, hv, hrest => by
    have hkey := tokens_quote key (':' :: (v.chars ++ rest))
    rw [tokens_colon, v.tokens_chars rest hv.1 hrest] at hkey
    simpa [memberChars, memberTokens] using hkey
  | (key, v) :: m :: ms, rest, hv, hrest => by
    have hms := tokens_memberChars (m :: ms) rest hv.2 hrest
    have hfirst := v.tokens_chars (',' :: (memberChars (m :: ms) ++ rest)) hv.1
      (endsNumeral_separator _ (by simp))
    have hkey := tokens_quote key (':' :: (v.chars ++ ',' :: (memberChars (m :: ms) ++ rest)))
    rw [tokens_colon, hfirst, tokens_comma, hms] at hkey
    simpa [memberChars, memberTokens] using hkey

end

/-! ## 3. From the tokens to the tree -/

/-- A value does not begin with a closing bracket. -/
theorem Value.exists_tokens_cons (v : Value) : ∃ t ts, v.tokens = t :: ts ∧ t ≠ .closeArray := by
  cases v <;> exact ⟨_, _, rfl, Token.noConfusion⟩

theorem exists_itemTokens_append (v : Value) (vs : List Value) :
    ∃ more, itemTokens (v :: vs) = v.tokens ++ more := by
  cases vs with
  | nil => exact ⟨[], (List.append_nil _).symm⟩
  | cons w vs => exact ⟨_, rfl⟩

/-- The first item of an array is read like every other one. -/
theorem foldl_firstItem (v : Value) (vs : List Value) (outer : List Frame) (ts : List Token) :
    (itemTokens (v :: vs) ++ ts).foldl Progress.step (.firstItem outer) =
      (itemTokens (v :: vs) ++ ts).foldl Progress.step (.value (.array [] :: outer)) := by
  obtain ⟨more, hitems⟩ := exists_itemTokens_append v vs
  obtain ⟨t, rest, hv, hclose⟩ := v.exists_tokens_cons
  rw [hitems, hv, List.cons_append, List.cons_append, List.foldl_cons, List.foldl_cons]
  congr 1
  cases t with
  | closeArray => exact absurd rfl hclose
  | _ => rfl

open Progress (put)

mutual

/-- **Wherever a value is due, its tokens put its tree there.** -/
theorem Value.foldl_tokens : ∀ (v : Value) (outer : List Frame) (ts : List Token),
    (v.tokens ++ ts).foldl Progress.step (.value outer) =
      ts.foldl Progress.step (put v.toNode outer)
  | .null, _, _ => rfl
  | .boolean _, _, _ => rfl
  | .natural _, _, _ => rfl
  | .text _, _, _ => rfl
  | .array [], _, _ => rfl
  | .object [], _, _ => rfl
  | .array (v :: vs), outer, ts => by
    have hitems := foldl_itemTokens (v :: vs) (List.cons_ne_nil v vs) [] outer ts
    rw [← foldl_firstItem] at hitems
    have htokens : (Value.array (v :: vs)).tokens ++ ts =
        .openArray :: (itemTokens (v :: vs) ++ .closeArray :: ts) := by
      simp [Value.tokens]
    rw [htokens, List.foldl_cons]
    exact hitems
  | .object (m :: ms), outer, ts => by
    have hmembers := foldl_memberTokens (m :: ms) (List.cons_ne_nil m ms) [] outer ts
    have htokens : (Value.object (m :: ms)).tokens ++ ts =
        .openObject :: (memberTokens (m :: ms) ++ .closeObject :: ts) := by
      simp [Value.tokens]
    -- the first key of an object is read like every other one
    have hfirst :
        (memberTokens (m :: ms) ++ .closeObject :: ts).foldl Progress.step (.firstKey outer) =
          (memberTokens (m :: ms) ++ .closeObject :: ts).foldl Progress.step (.nextKey [] outer) := by
      cases ms <;> rfl
    rw [htokens, List.foldl_cons]
    exact hfirst.trans hmembers

theorem foldl_itemTokens : ∀ (vs : List Value), vs ≠ [] →
    ∀ (items : List Node) (outer : List Frame) (ts : List Token),
    (itemTokens vs ++ .closeArray :: ts).foldl Progress.step (.value (.array items :: outer)) =
      ts.foldl Progress.step (put (.array (items.reverse ++ itemNodes vs) true) outer)
  | [v], _, items, outer, ts => by
    have hnodes : items.reverse ++ itemNodes [v] = (v.toNode :: items).reverse := by
      simp [itemNodes]
    rw [itemTokens, v.foldl_tokens, hnodes]
    rfl
  | v :: w :: vs, _, items, outer, ts => by
    have hvs := foldl_itemTokens (w :: vs) (List.cons_ne_nil w vs) (v.toNode :: items) outer ts
    have hnodes : items.reverse ++ itemNodes (v :: w :: vs) =
        (v.toNode :: items).reverse ++ itemNodes (w :: vs) := by
      simp [itemNodes]
    have htokens : itemTokens (v :: w :: vs) ++ .closeArray :: ts =
        v.tokens ++ .comma :: (itemTokens (w :: vs) ++ .closeArray :: ts) := by
      simp [itemTokens]
    rw [htokens, v.foldl_tokens, hnodes, ← hvs]
    rfl

theorem foldl_memberTokens : ∀ (ms : List (String × Value)), ms ≠ [] →
    ∀ (members : List (Option String × Node)) (outer : List Frame) (ts : List Token),
    (memberTokens ms ++ .closeObject :: ts).foldl Progress.step (.nextKey members outer) =
      ts.foldl Progress.step (put (.object (members.reverse ++ memberNodes ms) true) outer)
  | [(key, v)], _, members, outer, ts => by
    have hnodes : members.reverse ++ memberNodes [(key, v)] =
        ((some key, v.toNode) :: members).reverse := by
      simp [memberNodes]
    have hv := v.foldl_tokens (.object members (some key) :: outer) (.closeObject :: ts)
    rw [memberTokens, List.cons_append, List.cons_append, List.foldl_cons, List.foldl_cons, hnodes]
    exact hv
  | (key, v) :: m :: ms, _, members, outer, ts => by
    have hms := foldl_memberTokens (m :: ms) (List.cons_ne_nil m ms)
      ((some key, v.toNode) :: members) outer ts
    have hnodes : members.reverse ++ memberNodes ((key, v) :: m :: ms) =
        ((some key, v.toNode) :: members).reverse ++ memberNodes (m :: ms) := by
      simp [memberNodes]
    have htokens : memberTokens ((key, v) :: m :: ms) ++ .closeObject :: ts =
        .text (some key) :: .colon ::
          (v.tokens ++ .comma :: (memberTokens (m :: ms) ++ .closeObject :: ts)) := by
      simp [memberTokens]
    have hv := v.foldl_tokens (.object members (some key) :: outer)
      (.comma :: (memberTokens (m :: ms) ++ .closeObject :: ts))
    rw [htokens, List.foldl_cons, List.foldl_cons, hnodes, ← hms]
    exact hv

end

/-! ## 4. From the text to the tree -/

/-- **The text of a value is a document, and its tree is that of the value.** -/
theorem Value.read_toText {v : Value} (h : v.FitsWords) :
    Document.read v.toText = ⟨v.toNode, true⟩ := by
  have htokens := v.tokens_chars [] h endsNumeral_nil
  have hnone : Json.tokens [] = [] := by rw [Json.tokens]
  rw [List.append_nil, hnone] at htokens
  rw [Document.read, Value.toText, String.toList_ofList, htokens, Document.ofTokens, v.foldl_tokens]
  rfl

/-- A reader that takes the tree of a value takes its text. -/
theorem decode_toText {α : Type} {reader : Reader α} {v : Value} (h : v.FitsWords) {a : α}
    (hread : reader nesting v.toNode = .ok a) : decode reader v.toText = .ok a := by
  rw [decode, v.read_toText h]
  dsimp only
  rw [hread]
  rfl

/-! ## 5. One line -/

theorem space_le_of_isDigit {c : Char} (h : c.isDigit = true) : 0x20 ≤ c.toNat :=
  (by decide : 0x20 ≤ 48).trans (Char.isDigit_iff_toNat.mp h).1

/-- The escapes of control characters have none. -/
theorem space_le_hexChar : ∀ n < 0x20,
    0x20 ≤ (hexChar (n / 16)).toNat ∧ 0x20 ≤ (hexChar (n % 16)).toNat := by
  decide

theorem space_le_of_mem_escapeChar {c d : Char} (h : d ∈ escapeChar c) : 0x20 ≤ d.toNat := by
  unfold escapeChar at h
  split at h
  case h_8 =>
    split at h
    · rename_i hc
      obtain ⟨hhigh, hlow⟩ := space_le_hexChar c.toNat hc
      simp only [List.mem_cons, List.not_mem_nil, or_false] at h
      rcases h with rfl | rfl | rfl | rfl | rfl | rfl
      · decide
      · decide
      · decide
      · decide
      · exact hhigh
      · exact hlow
    · rename_i hc
      rw [List.mem_singleton.mp h]
      exact Nat.le_of_not_lt hc
  all_goals
    simp only [List.mem_cons, List.not_mem_nil, or_false] at h
    rcases h with rfl | rfl <;> decide

theorem space_le_of_all {cs : List Char} (hall : cs.all fun c => 0x20 ≤ c.toNat) {c : Char}
    (h : c ∈ cs) : 0x20 ≤ c.toNat := by
  simpa using List.all_eq_true.mp hall c h

theorem space_le_of_mem_quote {s : String} {c : Char} (h : c ∈ quote s) : 0x20 ≤ c.toNat := by
  simp only [quote, List.mem_append, List.mem_cons, List.mem_flatMap, List.not_mem_nil,
    or_false] at h
  rcases h with (rfl | ⟨d, -, hd⟩) | rfl
  · decide
  · exact space_le_of_mem_escapeChar hd
  · decide

mutual

/-- **A value is written without control characters.** -/
theorem Value.space_le_of_mem_chars : ∀ (v : Value) (c : Char), c ∈ v.chars → 0x20 ≤ c.toNat
  | .null, c, h => space_le_of_all (by decide) h
  | .boolean true, c, h => space_le_of_all (by decide) h
  | .boolean false, c, h => space_le_of_all (by decide) h
  | .natural n, c, h => by
    rw [Value.chars] at h
    exact space_le_of_isDigit (Nat.isDigit_of_mem_toDigits (by decide) (by decide) h)
  | .text s, c, h => by
    rw [Value.chars] at h
    exact space_le_of_mem_quote h
  | .array items, c, h => by
    simp only [Value.chars, List.mem_append, List.mem_cons, List.not_mem_nil, or_false] at h
    rcases h with (rfl | h) | rfl
    · decide
    · exact space_le_of_mem_itemChars items c h
    · decide
  | .object members, c, h => by
    simp only [Value.chars, List.mem_append, List.mem_cons, List.not_mem_nil, or_false] at h
    rcases h with (rfl | h) | rfl
    · decide
    · exact space_le_of_mem_memberChars members c h
    · decide

theorem space_le_of_mem_itemChars :
    ∀ (vs : List Value) (c : Char), c ∈ itemChars vs → 0x20 ≤ c.toNat
  | [v], c, h => by
    rw [itemChars] at h
    exact v.space_le_of_mem_chars c h
  | v :: w :: vs, c, h => by
    rw [itemChars, List.mem_append, List.mem_cons] at h
    · rcases h with h | rfl | h
      · exact v.space_le_of_mem_chars c h
      · decide
      · exact space_le_of_mem_itemChars (w :: vs) c h
    · exact List.cons_ne_nil w vs

theorem space_le_of_mem_memberChars :
    ∀ (ms : List (String × Value)) (c : Char), c ∈ memberChars ms → 0x20 ≤ c.toNat
  | [(key, v)], c, h => by
    rw [memberChars, List.mem_append, List.mem_cons] at h
    rcases h with h | rfl | h
    · exact space_le_of_mem_quote h
    · decide
    · exact v.space_le_of_mem_chars c h
  | (key, v) :: m :: ms, c, h => by
    simp only [memberChars, List.append_assoc, List.cons_append, List.mem_append,
      List.mem_cons] at h
    rcases h with h | rfl | h | rfl | h
    · exact space_le_of_mem_quote h
    · decide
    · exact v.space_le_of_mem_chars c h
    · decide
    · exact space_le_of_mem_memberChars (m :: ms) c h

end

/-- **The text of a value is one line.** -/
theorem Value.newline_notMem_chars (v : Value) : '\n' ∉ v.chars :=
  fun h => absurd (v.space_le_of_mem_chars '\n' h) (by decide)

end ModifierFacts.Json
