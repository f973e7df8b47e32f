import ModifierFacts.Proofs.Extraction.Primitive

/-!
# What a context can be asked for

`Operation` lists every request that a context takes from outside, together with the steps that
requests are made of, and `performAll` carries out a sequence of them, each one whether or not the
ones before it failed. The states that a context can be in are those that such a sequence leaves,
also when several workers interleave their steps.

* `Operation.ByName`: the requests that a client makes, which name every modifier they attach;
* `Context.Kept.performAll`: a property that the primitive steps keep is there in all states;
  `Context.KeptByName.performAll`: one that is kept from name to name is there after all requests by
  name;
* **`Context.faithful_performAll`**: in all of them every registered name stands for its own entity.
-/

namespace ModifierFacts

/-- A request to a context. -/
inductive Operation where
  | modifier (name : String)
  | modifierOfAccessibility (access : Accessibility)
  | attach (declaration : DeclarationId) (modifier : EntityId)
  | hasModifier (declaration : DeclarationId) (name : String)
  | hasAccessibility (declaration : DeclarationId) (access : Accessibility)
  | attachAll (declaration : DeclarationId) (set : ModifierSet)
  | extractModifiers (declaration : DeclarationId) (symbol : Symbol)
  | extractUnit (u : CompilationUnit)
  | run (policy : FailurePolicy) (units : List CompilationUnit)
  /-- A call of the sink behind the context. -/
  | call (c : SinkCall)
  -- the remaining steps of requests that are not finished
  | register (name : String)
  | countEntity
  | countEdge
  | countClassified

/-- A request that speaks of modifiers by their names. The others attach an entity that they were
handed, or are parts of a request. -/
def Operation.ByName : Operation → Prop
  | modifier _ | modifierOfAccessibility _ | hasModifier _ _ | hasAccessibility _ _
  | attachAll _ _ | extractModifiers _ _ | extractUnit _ | run _ _ => True
  | attach _ _ | call _ | register _ | countEntity | countEdge | countClassified => False

namespace Context

variable {σ : Type} (sink : FactSink σ)

/-- The context after a request, whatever the answer was. -/
def perform (cx : Context σ) : Operation → Context σ
  | .modifier n => (modifier sink n cx).2
  | .modifierOfAccessibility a => (modifierOfAccessibility sink a cx).2
  | .attach d m => (attach sink d m cx).2
  | .hasModifier d n => (hasModifier sink d n cx).2
  | .hasAccessibility d a => (hasAccessibility sink d a cx).2
  | .attachAll d set => (attachAll sink d set.names cx).2
  | .extractModifiers d s => (extractModifiers sink d s cx).2
  | .extractUnit u => (extractUnit sink u cx).2
  | .run policy units => (run sink policy units cx).2
  | .call c => (call sink c cx).2
  | .register n => (register n cx).2
  | .countEntity => (countEntity cx).2
  | .countEdge => (countEdge cx).2
  | .countClassified => (countClassified cx).2

/-- The context after a sequence of requests. -/
def performAll (cx : Context σ) (ops : List Operation) : Context σ := ops.foldl (perform sink) cx

variable {sink}

theorem KeptByName.perform {I : Context σ → Prop} (hI : KeptByName sink I fun _ => I)
    {cx : Context σ} (h : I cx) {op : Operation} (hop : op.ByName) : I (perform sink cx op) := by
  cases op with
  | modifier n => exact (hI.modifier n).state h
  | modifierOfAccessibility a => exact (hI.modifierOfAccessibility a).state h
  | hasModifier d n => exact (hI.hasModifier d n).state h
  | hasAccessibility d a => exact (hI.attachAll d a.modifiers).state h
  | attachAll d set => exact (hI.attachAll d set.names).state h
  | extractModifiers d s => exact (hI.extractModifiers d s).state h
  | extractUnit u => exact (hI.extractUnit u).state h
  | run policy units => exact hI.run policy units cx h
  | _ => cases hop

/-- A property that is kept from name to name is there after every sequence of requests by name. -/
theorem KeptByName.performAll {I : Context σ → Prop} (hI : KeptByName sink I fun _ => I)
    (ops : List Operation) (hops : ∀ op ∈ ops, op.ByName) {cx : Context σ} (h : I cx) :
    I (performAll sink cx ops) := by
  induction ops generalizing cx with
  | nil => exact h
  | cons op ops ih =>
    rw [List.forall_mem_cons] at hops
    exact ih hops.2 (hI.perform h hops.1)

theorem Kept.perform {I : Context σ → Prop} (hI : Kept sink I fun _ => I) {cx : Context σ}
    (h : I cx) (op : Operation) : I (perform sink cx op) := by
  cases op with
  | attach d m => exact (hI.attach d m).state h
  | call c => exact (hI.call c).state h
  | register n => exact (hI.register n).state h
  | countEntity => exact hI.countEntity.state h
  | countEdge => exact hI.countEdge.state h
  | countClassified => exact hI.countClassified.state h
  | _ => exact hI.byName.perform h trivial

theorem Kept.performAll {I : Context σ → Prop} (hI : Kept sink I fun _ => I) (ops : List Operation)
    {cx : Context σ} (h : I cx) : I (performAll sink cx ops) := by
  induction ops generalizing cx with
  | nil => exact h
  | cons op ops ih => exact ih (hI.perform h op)

variable (sink)

theorem faithful_register (n : String) {cx : Context σ} (h : cx.registry.Faithful) :
    (register n cx).2.registry.Faithful := by
  rw [register_apply]
  cases hn : cx.registry.get? n with
  | some e => exact h
  | none => exact h.register hn

/-- The primitive steps keep a registry faithful: only one of them touches it. -/
theorem kept_faithful :
    Kept sink (fun cx => cx.registry.Faithful) fun _ cx => cx.registry.Faithful where
  register n := .of_state fun _ h => faithful_register n h
  call c := .of_state fun cx h => by
    rw [call_apply]
    exact h
  countEntity _ h := h
  countEdge _ h := h
  countClassified _ h := h
  rejected _ _ h := h

/-- **In every context that can be reached, a registered name stands for its own entity.** -/
theorem faithful_performAll (s : σ) (ops : List Operation) :
    (performAll sink (start s) ops).registry.Faithful :=
  (kept_faithful sink).performAll ops Registry.faithful_empty

end Context

end ModifierFacts
