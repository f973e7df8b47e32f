import ModifierFacts.Classify
import ModifierFacts.Proofs.ModifierSet

/-!
# Which symbols are classified, and as what

The rules again, as a table that is read off the kind and the detail of a symbol directly, without
the views through which `Symbol.classify` goes:

* `Symbol.Fits`: the detail has the shape that the kind calls for, where it calls for one;
* `Symbol.rules`: the lines of the table, each a condition and the names supplied under it;
* `Symbol.views_eq`: a symbol that fits has exactly the views its kind calls for, every other one
  is rejected with the view that failed;
* **`Symbol.classify_decides`**: which symbols are rejected, with which error, and which names the
  others get in which order.
-/

namespace ModifierFacts

/-! ## 1. Kind and detail -/

/-- The view that a kind calls for. -/
def SymbolKind.view? : SymbolKind → Option View
  | .namedType => some .namedType
  | .field => some .field
  | .method => some .method
  | _ => none

/-- The view that a detail allows. -/
def SymbolDetail.view? : SymbolDetail → Option View
  | .namedType _ => some .namedType
  | .field _ => some .field
  | .method _ => some .method
  | .bare => none

namespace Symbol

/-- The detail of a symbol has the shape that its kind calls for. A kind that calls for none goes
with every detail. -/
def Fits (s : Symbol) : Prop := ∀ v, s.kind.view? = some v → s.detail.view? = some v

/-- A named type whose detail passes a test. -/
def isType (s : Symbol) (test : NamedTypeDetail → Bool) : Bool :=
  match s.kind, s.detail with
  | .namedType, .namedType d => test d
  | _, _ => false

/-- A field whose detail passes a test. -/
def isField (s : Symbol) (test : FieldDetail → Bool) : Bool :=
  match s.kind, s.detail with
  | .field, .field d => test d
  | _, _ => false

/-- A method whose detail passes a test. -/
def isMethod (s : Symbol) (test : MethodDetail → Bool) : Bool :=
  match s.kind, s.detail with
  | .method, .method d => test d
  | _, _ => false

/-- A member of a type that is an interface. -/
def isInterfaceMember (s : Symbol) : Bool :=
  s.containingType.any fun t => t.kind == .namedType && t.typeKind == some .interfaceType

end Symbol

/-! ## 2. The table -/

/-- A line of the rule table. -/
structure Rule where
  condition : Bool
  names : List String

/-- The names that the lines of a table supply whose conditions hold. -/
def Rule.supplies (table : List Rule) : List String :=
  (table.filter (·.condition)).flatMap (·.names)

namespace Rule

@[simp] theorem supplies_nil : supplies [] = [] := rfl

theorem supplies_cons (r : Rule) (table : List Rule) :
    supplies (r :: table) = (if r.condition then r.names else []) ++ supplies table := by
  unfold supplies
  cases h : r.condition <;> simp [h]

theorem supplies_append (t u : List Rule) : supplies (t ++ u) = supplies t ++ supplies u := by
  unfold supplies
  rw [List.filter_append, List.flatMap_append]

end Rule

/-- The lines on accessibility: one name, two names, or (not applicable) none. -/
def Accessibility.rules (a : Accessibility) : List Rule :=
  [⟨a = .privateAccess, ["private"]⟩, ⟨a = .publicAccess, ["public"]⟩,
    ⟨a = .protectedAccess, ["protected"]⟩, ⟨a = .internalAccess, ["internal"]⟩,
    ⟨a = .protectedOrInternal, ["protected", "internal"]⟩,
    ⟨a = .protectedAndInternal, ["protected", "private"]⟩]

theorem Accessibility.supplies_rules (a : Accessibility) : Rule.supplies a.rules = a.modifiers := by
  cases a <;> rfl

namespace Symbol

/-- The lines that look at the symbol: the flags, what its kind adds, and the keywords of the source
text, which come before what a value type adds. -/
def rules (s : Symbol) : List Rule :=
  [⟨s.kind = .errorType, ["public"]⟩,
    ⟨s.flags.isAbstract && !s.isType (·.typeKind = .interfaceType) && !s.isInterfaceMember,
      ["abstract"]⟩,
    ⟨s.flags.isAbstract && s.isInterfaceMember, ["virtual"]⟩,
    ⟨s.flags.isSealed, ["sealed"]⟩,
    ⟨s.flags.isStatic && !(s.isField (·.isConst) && s.declaredInSource), ["static"]⟩,
    ⟨s.flags.isVirtual, ["virtual"]⟩,
    ⟨s.isField (·.isReadOnly), ["readonly"]⟩,
    ⟨s.flags.isOverride, ["override"]⟩,
    ⟨s.isMethod (·.isAsync), ["async"]⟩,
    ⟨s.flags.isExtern, ["extern"]⟩,
    ⟨true, s.sourceModifiers⟩,
    ⟨s.isType fun d => d.typeKind = .structType && d.isReadOnly, ["readonly"]⟩,
    ⟨s.isType fun d => d.typeKind = .structType && d.isRefLike, ["ref"]⟩]

/-! ## 3. Views -/

/-- The views of a symbol whose kind and detail agree. -/
def fittingViews (s : Symbol) : Views where
  namedType := match s.kind, s.detail with
    | .namedType, .namedType d => some d
    | _, _ => none
  field := match s.kind, s.detail with
    | .field, .field d => some d
    | _, _ => none
  method := match s.kind, s.detail with
    | .method, .method d => some d
    | _, _ => none

/-- **The views of a symbol**: all that its kind calls for, or the rejection of the one that its
detail does not allow. -/
theorem views_eq (s : Symbol) :
    s.views = match s.kind.view? with
      | none => .ok s.fittingViews
      | some v => if s.detail.view? = some v then .ok s.fittingViews else .error (s.mismatch v) := by
  unfold views namedType? field? method? fittingViews
  cases s.kind <;> cases s.detail <;> rfl

theorem fits_of_view_none {s : Symbol} (h : s.kind.view? = none) : s.Fits := by
  intro v hv
  rw [h] at hv
  cases hv

theorem fits_iff_of_view_some {s : Symbol} {v : View} (h : s.kind.view? = some v) :
    s.Fits ↔ s.detail.view? = some v := by
  constructor
  · intro hf
    exact hf v h
  · intro hd w hw
    rw [h] at hw
    cases hw
    exact hd

theorem views_of_fits {s : Symbol} (h : s.Fits) : s.views = .ok s.fittingViews := by
  rw [views_eq]
  cases hk : s.kind.view? with
  | none => rfl
  | some v => exact if_pos (h v hk)

theorem views_of_not_fits {s : Symbol} (h : ¬ s.Fits) :
    ∃ v, s.kind.view? = some v ∧ s.detail.view? ≠ some v ∧ s.views = .error (s.mismatch v) := by
  cases hk : s.kind.view? with
  | none => exact absurd (fits_of_view_none hk) h
  | some v =>
    have hd : s.detail.view? ≠ some v := fun hd => h ((fits_iff_of_view_some hk).mpr hd)
    refine ⟨v, rfl, hd, ?_⟩
    rw [views_eq, hk]
    exact if_neg hd

/-! ## 4. The rules and the table -/

/-- A test of a view is the test of the detail. -/
theorem any_fittingViews_namedType (s : Symbol) (test : NamedTypeDetail → Bool) :
    s.fittingViews.namedType.any test = s.isType test := by
  unfold fittingViews isType
  cases s.kind <;> cases s.detail <;> rfl

theorem any_fittingViews_field (s : Symbol) (test : FieldDetail → Bool) :
    s.fittingViews.field.any test = s.isField test := by
  unfold fittingViews isField
  cases s.kind <;> cases s.detail <;> rfl

theorem any_fittingViews_method (s : Symbol) (test : MethodDetail → Bool) :
    s.fittingViews.method.any test = s.isMethod test := by
  unfold fittingViews isMethod
  cases s.kind <;> cases s.detail <;> rfl

/-- Two tests of one detail are one test of it. -/
theorem isType_and (s : Symbol) (p q : NamedTypeDetail → Bool) :
    (s.isType p && s.isType q) = s.isType fun d => p d && q d := by
  unfold isType
  cases s.kind <;> cases s.detail <;> rfl

theorem inInterface_eq (s : Symbol) : s.inInterface = s.isInterfaceMember := by
  unfold inInterface isInterfaceMember ContainingType.isInterface
  cases s.containingType <;> rfl

/-- **The rules supply what the table supplies.** -/
theorem ruleNames_eq_supplies (s : Symbol) (access : Accessibility) :
    s.ruleNames access s.fittingViews = Rule.supplies (access.rules ++ s.rules) := by
  rw [Rule.supplies_append, Accessibility.supplies_rules]
  unfold ruleNames rules supplyIf
  simp only [Rule.supplies_cons, Rule.supplies_nil, any_fittingViews_namedType,
    any_fittingViews_field, any_fittingViews_method, isType_and, inInterface_eq, Bool.beq_eq_decide_eq,
    List.append_assoc, List.append_nil, if_true]

/-! ## 5. Classification -/

theorem classify_of_unrecognized {s : Symbol} {word : String}
    (h : s.accessibility = .unrecognized word) :
    s.classify = .error ⟨s.name, .unknownAccessibility word⟩ := by
  unfold classify
  rw [h]

theorem classify_of_fits {s : Symbol} {access : Accessibility} (h : s.accessibility = .known access)
    (hf : s.Fits) :
    s.classify = .ok ⟨(Rule.supplies (access.rules ++ s.rules)).eraseDups⟩ := by
  unfold classify
  rw [h, views_of_fits hf]
  show Except.ok (ModifierSet.ofList (s.ruleNames access s.fittingViews)) = _
  rw [ruleNames_eq_supplies, ← ModifierSet.names_ofList]

theorem classify_of_not_fits {s : Symbol} {access : Accessibility}
    (h : s.accessibility = .known access) (hf : ¬ s.Fits) :
    ∃ v, s.kind.view? = some v ∧ s.detail.view? ≠ some v ∧
      s.classify = .error ⟨s.name, .shapeMismatch s.kind s.detail v⟩ := by
  obtain ⟨v, hk, hd, hv⟩ := views_of_not_fits hf
  refine ⟨v, hk, hd, ?_⟩
  unfold classify
  rw [h, hv]
  rfl

theorem classify_eq_error_iff (s : Symbol) (e : Unsupported) :
    s.classify = .error e ↔
      (∃ word, s.accessibility = .unrecognized word ∧ e = ⟨s.name, .unknownAccessibility word⟩) ∨
      (∃ access v, s.accessibility = .known access ∧ s.kind.view? = some v ∧
        s.detail.view? ≠ some v ∧ e = ⟨s.name, .shapeMismatch s.kind s.detail v⟩) := by
  constructor
  · intro he
    cases ha : s.accessibility with
    | unrecognized word =>
      rw [classify_of_unrecognized ha] at he
      cases he
      exact .inl ⟨word, rfl, rfl⟩
    | known access =>
      by_cases hf : s.Fits
      · rw [classify_of_fits ha hf] at he
        cases he
      · obtain ⟨v, hk, hd, hc⟩ := classify_of_not_fits ha hf
        rw [hc] at he
        cases he
        exact .inr ⟨access, v, rfl, hk, hd, rfl⟩
  · intro h
    rcases h with ⟨word, ha, rfl⟩ | ⟨access, v, ha, hk, hd, rfl⟩
    · exact classify_of_unrecognized ha
    · -- a kind calls for one view only, so the view that failed is this one
      obtain ⟨w, hw, -, hc⟩ := classify_of_not_fits ha fun hf => hd (hf v hk)
      rw [hk] at hw
      cases hw
      exact hc

theorem classify_eq_ok_iff (s : Symbol) (set : ModifierSet) :
    s.classify = .ok set ↔ ∃ access, s.accessibility = .known access ∧ s.Fits ∧
      set.names = (Rule.supplies (access.rules ++ s.rules)).eraseDups := by
  constructor
  · intro hs
    cases ha : s.accessibility with
    | unrecognized word =>
      rw [classify_of_unrecognized ha] at hs
      cases hs
    | known access =>
      by_cases hf : s.Fits
      · rw [classify_of_fits ha hf] at hs
        cases hs
        exact ⟨access, rfl, hf, rfl⟩
      · obtain ⟨v, -, -, hc⟩ := classify_of_not_fits ha hf
        rw [hc] at hs
        cases hs
  · intro ⟨access, ha, hf, hn⟩
    rw [classify_of_fits ha hf, ← hn]

theorem classify_fails_iff (s : Symbol) :
    (∃ e, s.classify = .error e) ↔ (∃ word, s.accessibility = .unrecognized word) ∨ ¬ s.Fits := by
  constructor
  · intro ⟨e, he⟩
    rcases (classify_eq_error_iff s e).mp he with ⟨word, ha, -⟩ | ⟨access, v, -, hk, hd, -⟩
    · exact .inl ⟨word, ha⟩
    · exact .inr fun hf => hd (hf v hk)
  · intro h
    rcases h with ⟨word, ha⟩ | hf
    · exact ⟨_, classify_of_unrecognized ha⟩
    · cases ha : s.accessibility with
      | unrecognized word => exact ⟨_, classify_of_unrecognized ha⟩
      | known access =>
        obtain ⟨v, -, -, hc⟩ := classify_of_not_fits ha hf
        exact ⟨_, hc⟩

/-- **What classification decides.** A symbol is rejected exactly if its accessibility is no known
level or its detail lacks the shape that its kind calls for. The rejection names the symbol; an
unknown accessibility is quoted, whatever the shape. Every other symbol gets the names that the
table supplies, in table order and each at its first supply. -/
theorem classify_decides (s : Symbol) :
    ((∃ e, s.classify = .error e) ↔ (∃ word, s.accessibility = .unrecognized word) ∨ ¬ s.Fits) ∧
    (∀ e, s.classify = .error e ↔
      (∃ word, s.accessibility = .unrecognized word ∧ e = ⟨s.name, .unknownAccessibility word⟩ ∧
        e.detail = "unhandled accessibility value `" ++ word ++ "`") ∨
      (∃ access v, s.accessibility = .known access ∧ s.kind.view? = some v ∧
        s.detail.view? ≠ some v ∧ e = ⟨s.name, .shapeMismatch s.kind s.detail v⟩)) ∧
    (∀ set, s.classify = .ok set ↔ ∃ access, s.accessibility = .known access ∧ s.Fits ∧
      set.names = (Rule.supplies (access.rules ++ s.rules)).eraseDups) := by
  refine ⟨classify_fails_iff s, fun e => (classify_eq_error_iff s e).trans ?_, classify_eq_ok_iff s⟩
  constructor
  · intro h
    rcases h with ⟨word, ha, rfl⟩ | h
    · exact .inl ⟨word, ha, rfl, rfl⟩
    · exact .inr h
  · intro h
    rcases h with ⟨word, ha, he, -⟩ | h
    · exact .inl ⟨word, ha, he⟩
    · exact .inr h

end Symbol

end ModifierFacts
