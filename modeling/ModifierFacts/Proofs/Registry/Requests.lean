import ModifierFacts.Proofs.FirstOccurrence
import ModifierFacts.Proofs.Registry

/-!
# A registry under any sequence of requests

Requests come one after the other, from however many parties, and each is answered in one step. The
factory that makes the entities may have a state of its own, so that it makes something else every
time it is asked.

* `Registry.Request`, `Registry.Answer`: what a registry can be asked, and what it says;
* `Registry.Served`: a registry at work, with the state of its factory, a record of the factory's
  invocations and the answers so far; `Served.serve` answers a request;
* `Served.Sound`: the registry holds what the factory made, under the keys that were created, and
  has reported each of them once as created;
* `Served.get?_of_first`: what a key got at its first creation it keeps;
* **`Registry.serveAll_decides`**: what a registry answers after any requests, and what it counts.
-/

namespace ModifierFacts.Registry

/-! ## 1. Requests and answers -/

/-- What a registry can be asked. -/
inductive Request (κ : Type) where
  | create (key : κ)
  | get (key : κ)
  | contains (key : κ)
  deriving DecidableEq, Repr

/-- What a registry answers. -/
inductive Answer (ε : Type) where
  | obtained (o : Obtained ε)
  | found (entity? : Option ε)
  | present (held : Bool)
  deriving DecidableEq, Repr

/-- Does the answer say that an entity was created? -/
def Answer.reportsCreation {ε : Type} : Answer ε → Bool
  | obtained o => o.created
  | found _ => false
  | present _ => false

/-- The key that a request asks to create. -/
def Request.created? {κ : Type} : Request κ → Option κ
  | create key => some key
  | get _ => none
  | contains _ => none

/-- The keys that were asked to be created, as often as they were. -/
def createdKeys {κ : Type} (requests : List (Request κ)) : List κ :=
  requests.filterMap Request.created?

theorem createdKeys_concat {κ : Type} (requests : List (Request κ)) (request : Request κ) :
    createdKeys (requests ++ [request]) = createdKeys requests ++ request.created?.toList := by
  unfold createdKeys
  rw [List.filterMap_append]
  cases request <;> rfl

theorem mem_createdKeys {κ : Type} (requests : List (Request κ)) (k : κ) :
    k ∈ createdKeys requests ↔ .create k ∈ requests := by
  unfold createdKeys
  rw [List.mem_filterMap]
  constructor
  · rintro ⟨request, hmem, hk⟩
    cases request with
    | create key =>
      have hkey : key = k := Option.some.inj hk
      rw [← hkey]
      exact hmem
    | get key => cases hk
    | contains key => cases hk
  · intro h
    exact ⟨.create k, h, rfl⟩

variable {κ ε σ : Type}

/-- A factory under observation: what it made, and for which key, is written down. -/
def recorded (make : κ → StateM σ ε) (key : κ) : StateM (σ × List (κ × ε)) ε :=
  fun (state, made) =>
    let (entity, state) := (make key).run state
    (entity, state, made ++ [(key, entity)])

/-- A registry at work. -/
structure Served (κ ε σ : Type) where
  registry : Registry κ ε := .empty
  /-- The state of the factory. -/
  factory : σ
  /-- The invocations of the factory, each with the key and what was made for it. -/
  made : List (κ × ε) := []
  /-- The answers, one for each request. -/
  answers : List (Answer ε) := []

namespace Served

/-- The same registry after an answer. -/
def answered (w : Served κ ε σ) (answer : Answer ε) : Served κ ε σ :=
  { w with answers := w.answers ++ [answer] }

/-- The registry after its factory was invoked for a new key: the entity is kept under the key, the
invocation is written down, and the creation is reported. -/
def grown (w : Served κ ε σ) (key : κ) (result : ε × σ) : Served κ ε σ where
  registry := w.registry.register key result.1
  factory := result.2
  made := w.made ++ [(key, result.1)]
  answers := w.answers ++ [.obtained ⟨result.1, true⟩]

variable [DecidableEq κ]

/-- Answers a request. -/
def serve (make : κ → StateM σ ε) (w : Served κ ε σ) : Request κ → Served κ ε σ
  | .create key =>
    let ((obtained, registry), factory, made) :=
      (w.registry.create key (recorded make)).run (w.factory, w.made)
    { registry, factory, made, answers := w.answers ++ [.obtained obtained] }
  | .get key => w.answered (.found (w.registry.get? key))
  | .contains key => w.answered (.present (w.registry.contains key))

variable (make : κ → StateM σ ε)

/-! ## 2. One request -/

/-- A new key: the factory is invoked once. -/
theorem serve_create_of_none {w : Served κ ε σ} {k : κ} (h : w.registry.get? k = none) :
    w.serve make (.create k) = w.grown k ((make k).run w.factory) := by
  simp only [serve, create, h]
  rfl

/-- A key that is there: the factory is not invoked. -/
theorem serve_create_of_some {w : Served κ ε σ} {k : κ} {e : ε} (h : w.registry.get? k = some e) :
    w.serve make (.create k) = w.answered (.obtained ⟨e, false⟩) := by
  simp only [serve, create, h]
  rfl

/-- What a key stands for no request changes. -/
theorem get?_serve_of_some {w : Served κ ε σ} {k : κ} {e : ε} (h : w.registry.get? k = some e)
    (request : Request κ) : (w.serve make request).registry.get? k = some e := by
  cases request with
  | get key => exact h
  | contains key => exact h
  | create key =>
    cases hkey : w.registry.get? key with
    | some e' =>
      rw [serve_create_of_some make hkey]
      exact h
    | none =>
      have hne : k ≠ key := by
        intro heq
        rw [heq, hkey] at h
        cases h
      rw [serve_create_of_none make hkey, grown, get?_register w.registry _ hkey, if_neg hne]
      exact h

/-- The registry holds what the factory made, under the keys that the requests asked to create, and
every creation was reported. -/
structure Sound (w : Served κ ε σ) (requests : List (Request κ)) : Prop where
  entries : w.registry.entries = w.made
  keys : w.registry.keys = (createdKeys requests).eraseDups
  reported : w.answers.countP Answer.reportsCreation = w.registry.size

namespace Sound

variable {w : Served κ ε σ} {requests : List (Request κ)}

theorem start (s : σ) : ({ factory := s } : Served κ ε σ).Sound [] := ⟨rfl, rfl, rfl⟩

theorem contains_iff (h : w.Sound requests) (k : κ) :
    w.registry.contains k = true ↔ .create k ∈ requests := by
  rw [contains_iff_mem_keys, h.keys, List.mem_eraseDups, mem_createdKeys]

theorem get?_eq_none_iff (h : w.Sound requests) (k : κ) :
    w.registry.get? k = none ↔ .create k ∉ requests := by
  rw [Registry.get?_eq_none_iff, ← contains_iff_mem_keys, h.contains_iff]

/-- An answer that reports no creation, after a request that asks for none or for a key that is
there. -/
theorem answered (h : w.Sound requests) {answer : Answer ε} (hno : answer.reportsCreation = false)
    {request : Request κ} (hold : ∀ k, request.created? = some k → .create k ∈ requests) :
    (w.answered answer).Sound (requests ++ [request]) := by
  refine ⟨h.entries, ?_, ?_⟩
  · show w.registry.keys = _
    rw [h.keys, createdKeys_concat]
    cases hk : request.created? with
    | none => rw [Option.toList_none, List.append_nil]
    | some k =>
      have hmem : k ∈ createdKeys requests := (mem_createdKeys requests k).mpr (hold k hk)
      rw [Option.toList_some, eraseDups_concat, if_pos hmem]
  · show (w.answers ++ [answer]).countP _ = w.registry.size
    rw [List.countP_append, List.countP_singleton, hno, h.reported]
    rfl

/-- **Every request keeps the registry sound.** -/
theorem serve (h : w.Sound requests) (request : Request κ) :
    (w.serve make request).Sound (requests ++ [request]) := by
  cases request with
  | get key => exact h.answered rfl (by simp [Request.created?])
  | contains key => exact h.answered rfl (by simp [Request.created?])
  | create key =>
    cases hkey : w.registry.get? key with
    | some e =>
      have hmem : Request.create key ∈ requests := by
        rw [← h.contains_iff, contains, hkey]
        rfl
      rw [serve_create_of_some make hkey]
      refine h.answered rfl fun k hk => ?_
      rw [← Option.some.inj hk]
      exact hmem
    | none =>
      have hnew : key ∉ createdKeys requests := by
        rw [mem_createdKeys, ← h.get?_eq_none_iff]
        exact hkey
      rw [serve_create_of_none make hkey]
      refine ⟨?_, ?_, ?_⟩
      · show w.registry.entries ++ _ = w.made ++ _
        rw [h.entries]
      · show (w.registry.register key _).keys = _
        rw [keys_register, h.keys, createdKeys_concat, Request.created?, Option.toList_some,
          eraseDups_concat, if_neg hnew]
      · show (w.answers ++ [_]).countP _ = (w.registry.entries ++ [_]).length
        rw [List.countP_append, List.countP_singleton, h.reported, List.length_append]
        rfl

/-- The registry counts the invocations of its factory and the keys that were created. -/
theorem size_eq (h : w.Sound requests) :
    w.registry.size = w.made.length ∧
      w.registry.size = (createdKeys requests).toFinset.card := by
  have hkeys : w.registry.size = w.registry.keys.length := (List.length_map _).symm
  refine ⟨?_, ?_⟩
  · rw [size, h.entries]
  · rw [hkeys, h.keys, length_eraseDups]

end Sound

end Served

/-! ## 3. A sequence of requests -/

open Served

variable [DecidableEq κ] (make : κ → StateM σ ε)

/-- The registry after requests to an empty one. -/
def serveAll (s : σ) (requests : List (Request κ)) : Served κ ε σ :=
  requests.foldl (serve make) { factory := s }

theorem sound_serveAll (s : σ) (requests : List (Request κ)) :
    (serveAll make s requests).Sound requests := by
  induction requests using List.reverseRecOn with
  | nil => exact .start s
  | append_singleton requests request ih =>
    have hlast : serveAll make s (requests ++ [request]) =
        (serveAll make s requests).serve make request := List.foldl_concat ..
    rw [hlast]
    exact ih.serve make request

/-- What a key stands for is never changed. -/
theorem get?_foldl_of_some {w : Served κ ε σ} {k : κ} {e : ε} (h : w.registry.get? k = some e)
    (requests : List (Request κ)) :
    (requests.foldl (serve make) w).registry.get? k = some e := by
  induction requests generalizing w with
  | nil => exact h
  | cons request requests ih => exact ih (get?_serve_of_some make h request)

/-- **A key keeps what it got at its first creation.** -/
theorem get?_of_first (s : σ) {before : List (Request κ)} {k : κ} (hfirst : .create k ∉ before)
    (later : List (Request κ)) :
    (serveAll make s (before ++ .create k :: later)).registry.get? k =
      some ((make k).run (serveAll make s before).factory).1 := by
  have hnone : (serveAll make s before).registry.get? k = none :=
    ((sound_serveAll make s before).get?_eq_none_iff k).mpr hfirst
  have hsplit : serveAll make s (before ++ .create k :: later) =
      later.foldl (serve make) ((serveAll make s before).serve make (.create k)) :=
    List.foldl_append
  rw [hsplit, serve_create_of_none make hnone]
  refine get?_foldl_of_some make ?_ later
  rw [grown, get?_register _ _ hnone, if_pos rfl]

/-- **A registry answers as the finite map of what its factory made first.** After any requests:
* a key that none of them asked to create is not found, and to create it invokes the factory once,
  keeps the entity under the key and reports the creation;
* a key that was created is found as what the factory made at its first creation, and to create it
  again gives that same entity, reports no creation and leaves the rest as it is;
* to get a key or to ask for it adds an answer and changes nothing else;
* the size is the number of invocations of the factory, of reported creations, and of different
  keys that were created. -/
theorem serveAll_decides (s : σ) (requests : List (Request κ)) :
    let w := serveAll make s requests
    (∀ k, .create k ∉ requests →
      w.registry.get? k = none ∧
        w.serve make (.create k) = w.grown k ((make k).run w.factory)) ∧
      (∀ k, .create k ∈ requests → ∃ before later e,
        requests = before ++ .create k :: later ∧ .create k ∉ before ∧
          e = ((make k).run (serveAll make s before).factory).1 ∧
          w.registry.get? k = some e ∧
          w.serve make (.create k) = w.answered (.obtained ⟨e, false⟩)) ∧
      (∀ k,
        w.serve make (.get k) = w.answered (.found (w.registry.get? k)) ∧
          w.serve make (.contains k) = w.answered (.present (decide (.create k ∈ requests)))) ∧
      w.registry.size = w.made.length ∧
      w.registry.size = w.answers.countP Answer.reportsCreation ∧
      w.registry.size = (createdKeys requests).toFinset.card := by
  intro w
  have hsound : w.Sound requests := sound_serveAll make s requests
  refine ⟨fun k hnew => ?_, fun k hold => ?_, fun k => ⟨rfl, ?_⟩, hsound.size_eq.1,
    hsound.reported.symm, hsound.size_eq.2⟩
  · have hnone : w.registry.get? k = none := (hsound.get?_eq_none_iff k).mpr hnew
    exact ⟨hnone, serve_create_of_none make hnone⟩
  · obtain ⟨before, later, hsplit, hfirst⟩ := List.eq_append_cons_of_mem hold
    have hget : w.registry.get? k = some ((make k).run (serveAll make s before).factory).1 := by
      have hkept := get?_of_first make s hfirst later
      rw [← hsplit] at hkept
      exact hkept
    exact ⟨before, later, _, hsplit, hfirst, rfl, hget, serve_create_of_some make hget⟩
  · have hcontains : w.registry.contains k = decide (.create k ∈ requests) := by
      rw [Bool.eq_iff_iff, hsound.contains_iff, decide_eq_true_iff]
    rw [← hcontains]
    rfl

/-- A factory that numbers what it makes: the second request to create a key gets the first number
again. -/
theorem serveAll_decides_numbered :
    let make : String → StateM Nat (String × Nat) := fun key n => ((key, n), n + 1)
    let requests : List (Request String) :=
      [.create "public", .get "static", .create "static", .create "public"]
    let w := serveAll make 0 requests
    .create "sealed" ∉ requests ∧ .create "public" ∈ requests ∧
      w.serve make (.create "sealed") = w.grown "sealed" (("sealed", 2), 3) ∧
      w.serve make (.create "public") = w.answered (.obtained ⟨("public", 0), false⟩) ∧
      w.registry.size = 2 := by
  intro make requests w
  have hnew : .create "sealed" ∉ requests := by decide
  have hold : .create "public" ∈ requests := by decide
  obtain ⟨habsent, hpresent, -, hinvoked, -, -⟩ := serveAll_decides make 0 requests
  obtain ⟨-, hsealed⟩ := habsent "sealed" hnew
  obtain ⟨-, -, e, -, -, -, hget, hpublic⟩ := hpresent "public" hold
  have he : e = ("public", 0) := (Option.some.inj hget).symm
  rw [he] at hpublic
  exact ⟨hnew, hold, hsealed, hpublic, hinvoked⟩

end ModifierFacts.Registry
