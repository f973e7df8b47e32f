import Mathlib.Data.List.Nodup
import ModifierFacts.Proofs.CommandLine.Spelling
import ModifierFacts.Proofs.Json.Exact

/-!
# How options are read

The arguments on one side of the subcommand are read one after the other. What a side has recorded
in the end is what they spell.

* `Side.recordAll_eq_ok_iff`: which options are recorded;
* `Word.read`, `exists_word_of_read`: an argument is read as what it spells, and read only if it
  spells something;
* `Ends`: reading arguments to their end; `ends_word_iff`, `ends_wordApart_iff`: one argument, or
  one with its value;
* **`ends_iff`**: reading ends well exactly if the arguments spell options that can be recorded;
* **`ends_empty_iff`**: so a side has what its arguments give.
-/

namespace ModifierFacts.CommandLine

open Json (except_bind_eq_ok_iff except_pure_eq_ok_iff)

/-! ## 1. Recording -/

/-- A name is looked up if it is there. -/
theorem lookup_isSome_iff_mem {β : Type} (l : List (String × β)) (name : String) :
    (l.lookup name).isSome = true ↔ name ∈ l.map (·.1) := by
  rw [List.lookup_isSome_iff, List.mem_map]
  exact exists_congr fun p => and_congr_right fun _ => by rw [beq_iff_eq, eq_comm]

/-- Under a name that occurs once its own entry is found. -/
theorem lookup_eq_some_iff_mem {β : Type} {l : List (String × β)} (h : (l.map (·.1)).Nodup)
    (name : String) (b : β) : l.lookup name = some b ↔ (name, b) ∈ l := by
  induction l with
  | nil => simp
  | cons e l ih =>
    obtain ⟨key, first⟩ := e
    obtain ⟨hkey, hrest⟩ := List.nodup_cons.mp h
    by_cases hname : name = key
    · subst hname
      have hno : (name, b) ∉ l := by
        intro hmem
        exact hkey (List.mem_map.mpr ⟨_, hmem, rfl⟩)
      simp [hno, eq_comm]
    · have hne : (name == key) = false := beq_eq_false_iff_ne.mpr hname
      simp only [List.lookup_cons, hne, ih hrest, List.mem_cons, Prod.mk.injEq, hname, false_and,
        false_or]

/-- How two computations go on is compared on results only. -/
theorem bind_congr_of_ok {ε α β : Type} {p : Except ε α} {f g : α → Except ε β}
    (h : ∀ a, p = .ok a → f a = g a) : p >>= f = p >>= g := by
  cases p with
  | error e => rfl
  | ok a => exact h a rfl

namespace Side

/-- No option is open on the side, and options can follow. -/
def Ready (side : Side) : Prop := side.pending = none ∧ side.closed = false

/-- An option can be read next. The value of the one before it, if that is an argument of its own,
has come. -/
def Free (side : Side) : Prop := side.awaitsValue = false ∧ side.closed = false

theorem takes_iff (s : Switch) (value : String) :
    s.form.all (·.admits value) = true ↔ s.Takes value := by
  unfold Switch.Takes
  cases s.form with
  | none => simp
  | some form =>
    cases form with
    | path => simp [ValueForm.admits]
    | count => simp [ValueForm.admits, Option.isSome_iff_exists, count?_eq_some_iff]

/-- An option is recorded if it is new and its value fits. -/
theorem record_eq_ok_iff (side side' : Side) (s : Switch) (value : String) :
    side.record s value = .ok side' ↔
      s.name ≠ "help" ∧ s.name ∉ side.given.map (·.1) ∧ s.Takes value ∧
        side' = { side with given := side.given ++ [(s.name, value)] } := by
  unfold record
  by_cases hhelp : s.name = "help"
  · simp [hhelp]
  · rw [if_neg hhelp, ← lookup_isSome_iff_mem, ← takes_iff]
    by_cases hnew : (side.given.lookup s.name).isSome = true
    · simp [hnew]
    · by_cases htakes : s.form.all (·.admits value) = true
      · simp [hnew, htakes, hhelp, eq_comm]
      · simp [hnew, htakes]

/-- Records options one after the other. -/
def recordAll (side : Side) (options : List (Switch × String)) : Except Refusal Side :=
  options.foldlM (fun side o => side.record o.1 o.2) side

theorem recordAll_cons_eq_ok_iff (o : Switch × String) (options : List (Switch × String))
    (side side' : Side) :
    side.recordAll (o :: options) = .ok side' ↔
      ∃ mid, side.record o.1 o.2 = .ok mid ∧ mid.recordAll options = .ok side' := by
  rw [recordAll, List.foldlM_cons, except_bind_eq_ok_iff]
  rfl

theorem recordAll_append_eq_ok_iff (first second : List (Switch × String)) (side side' : Side) :
    side.recordAll (first ++ second) = .ok side' ↔
      ∃ mid, side.recordAll first = .ok mid ∧ mid.recordAll second = .ok side' := by
  rw [recordAll, List.foldlM_append, except_bind_eq_ok_iff]
  rfl

theorem recordAll_singleton (side : Side) (s : Switch) (value : String) :
    side.recordAll [(s, value)] = side.record s value := by
  rw [recordAll, List.foldlM_cons]
  cases side.record s value <;> rfl

theorem nodup_names_concat (given : Given) (name value : String) :
    ((given ++ [(name, value)]).map (·.1)).Nodup ↔
      (given.map (·.1)).Nodup ∧ name ∉ given.map (·.1) := by
  rw [List.map_append, List.map_singleton, ← List.concat_eq_append, List.nodup_concat]
  exact and_comm

/-- **Options are recorded if they are all new and all fit.** -/
theorem recordAll_eq_ok_iff (options : List (Switch × String)) (side side' : Side)
    (hnodup : (side.given.map (·.1)).Nodup) :
    side.recordAll options = .ok side' ↔
      ((side.given ++ givenOf options).map (·.1)).Nodup ∧
        (∀ o ∈ options, o.1.name ≠ "help" ∧ o.1.Takes o.2) ∧
        side' = { side with given := side.given ++ givenOf options } := by
  induction options generalizing side with
  | nil =>
    rw [recordAll, List.foldlM_nil, except_pure_eq_ok_iff]
    simp [givenOf, hnodup, eq_comm]
  | cons o options ih =>
    have hgiven : side.given ++ givenOf (o :: options) =
        side.given ++ [(o.1.name, o.2)] ++ givenOf options := by
      simp [givenOf]
    rw [recordAll_cons_eq_ok_iff, hgiven, List.forall_mem_cons]
    constructor
    · intro ⟨mid, hrecord, hrest⟩
      obtain ⟨hhelp, hnew, htakes, rfl⟩ := (record_eq_ok_iff _ _ _ _).mp hrecord
      have hmid := (nodup_names_concat _ _ o.2).mpr ⟨hnodup, hnew⟩
      obtain ⟨hall, hfit, hside⟩ := (ih _ hmid).mp hrest
      exact ⟨hall, ⟨⟨hhelp, htakes⟩, hfit⟩, hside⟩
    · intro ⟨hall, ⟨⟨hhelp, htakes⟩, hfit⟩, hside⟩
      have hmid : ((side.given ++ [(o.1.name, o.2)]).map (·.1)).Nodup := by
        rw [List.map_append] at hall
        exact (List.nodup_append.mp hall).1
      have hnew := ((nodup_names_concat _ _ _).mp hmid).2
      exact ⟨_, (record_eq_ok_iff _ _ _ _).mpr ⟨hhelp, hnew, htakes, rfl⟩,
        (ih _ hmid).mpr ⟨hall, hfit, hside⟩⟩

theorem Ready.record {side side' : Side} {s : Switch} {value : String} (h : side.Ready)
    (hrecord : side.record s value = .ok side') : side'.Ready := by
  obtain ⟨-, -, -, rfl⟩ := (record_eq_ok_iff _ _ _ _).mp hrecord
  exact h

theorem Ready.recordAll {options : List (Switch × String)} {side side' : Side} (h : side.Ready)
    (hrecord : side.recordAll options = .ok side') : side'.Ready := by
  induction options generalizing side with
  | nil =>
    cases hrecord
    exact h
  | cons o options ih =>
    rw [Side.recordAll, List.foldlM_cons, except_bind_eq_ok_iff] at hrecord
    obtain ⟨mid, hmid, hrest⟩ := hrecord
    exact ih (h.record hmid) hrest

theorem Ready.settle {side : Side} (h : side.Ready) : side.settle = .ok side := by
  rw [Side.settle, h.1]

theorem Ready.free {side : Side} (h : side.Ready) : side.Free :=
  ⟨by rw [awaitsValue, h.1], h.2⟩

theorem Free.ready {side mid : Side} (h : side.Free) (hsettle : side.settle = .ok mid) :
    mid.Ready := by
  obtain ⟨given, pending, closed⟩ := side
  obtain ⟨hawaits, hclosed⟩ := h
  match pending with
  | none =>
    cases hsettle
    exact ⟨rfl, hclosed⟩
  | some (s, none) => cases hawaits
  | some (s, some value) =>
    obtain ⟨-, -, -, rfl⟩ := (record_eq_ok_iff _ _ _ _).mp hsettle
    exact ⟨rfl, hclosed⟩

theorem Free.ready_give {side mid : Side} (h : side.Free) {s : Switch} {value : String}
    (hgive : side.give s value = .ok mid) : mid.Ready := by
  obtain ⟨settled, hsettle, hrecord⟩ := except_bind_eq_ok_iff.mp hgive
  exact (h.ready hsettle).record hrecord

/-! ## 2. One argument -/

/-- The side with this option left open, if there is one. -/
def leaving (side : Side) (left : Option Switch) : Side :=
  { side with pending := left.map (·, none) }

theorem Ready.leaving_none {side : Side} (h : side.Ready) : side.leaving none = side := by
  obtain ⟨given, pending, closed⟩ := side
  obtain ⟨hpending, -⟩ := h
  cases hpending
  rfl

/-- Closes what is open, records what an argument spells and leaves its last option open. -/
def take (side : Side) (options : List (Switch × String)) (left : Option Switch) :
    Except Refusal Side := do
  return (← (← side.settle).recordAll options).leaving left

theorem await_eq_take (side : Side) (s : Switch) : side.await s = side.take [] (some s) := rfl

theorem Ready.take_nil {side : Side} (h : side.Ready) : side.take [] none = .ok side := by
  rw [take, h.settle]
  show Except.ok (side.leaving none) = _
  rw [h.leaving_none]

theorem Free.take_cons {side : Side} (h : side.Free) (s : Switch) (value : String)
    (options : List (Switch × String)) (left : Option Switch) :
    side.take ((s, value) :: options) left =
      side.give s value >>= fun mid => mid.take options left := by
  have hsettled : side.give s value >>= (fun mid => mid.take options left) =
      side.give s value >>= fun mid => mid.recordAll options >>= fun last =>
        pure (last.leaving left) :=
    bind_congr_of_ok fun mid hmid => by
      rw [take, (h.ready_give hmid).settle]
      rfl
  rw [hsettled, give, take]
  simp only [recordAll, List.foldlM_cons, bind_assoc]

theorem Free.take_singleton {side : Side} (h : side.Free) (s : Switch) (value : String) :
    side.take [(s, value)] none = side.give s value := by
  have hrest : side.give s value >>= (fun mid => mid.take [] none) = side.give s value >>= pure :=
    bind_congr_of_ok fun mid hmid => (h.ready_give hmid).take_nil
  rw [h.take_cons, hrest, bind_pure]

/-- An argument is read by its first characters, whether or not a value stands open before it. -/
theorem Free.read {switches : List Switch} {side : Side} (h : side.Free) (arg : String) :
    side.read switches arg =
      match arg.toList with
      | ['-', '-'] => .ok { side with closed := true }
      | '-' :: '-' :: name => side.long switches name
      | '-' :: c :: letters => side.short switches (c :: letters)
      | _ => .error .usage := by
  obtain ⟨given, pending, closed⟩ := side
  obtain ⟨hawaits, hclosed⟩ := h
  cases hclosed
  match pending with
  | none => rfl
  | some (s, none) => cases hawaits
  | some (s, some value) => rfl

end Side

variable {switches : List Switch}

section

variable (hswitches : Distinct switches)

include hswitches

/-- A name goes up to its end or to an equals sign. -/
theorem Distinct.takeWhile_name {s : Switch} (hs : s ∈ switches) (rest : List Char)
    (hrest : ∀ c ∈ rest.head?, c = '=') :
    (s.name.toList ++ rest).takeWhile (· != '=') = s.name.toList ∧
      (s.name.toList ++ rest).dropWhile (· != '=') = rest := by
  have hall : ∀ c ∈ s.name.toList, (c != '=') = true := by
    intro c hc
    rw [bne_iff_ne]
    rintro rfl
    exact hswitches.equals_notMem s hs hc
  rw [List.takeWhile_append_of_pos hall, List.dropWhile_append_of_pos hall]
  cases rest with
  | nil => simp
  | cons c rest => simp [hrest c rfl]

/-- A name is looked up, and what follows it is its value. -/
theorem Distinct.long_eq {s : Switch} (hs : s ∈ switches) (rest : List Char)
    (hrest : ∀ c ∈ rest.head?, c = '=') (side : Side) :
    side.long switches (s.name.toList ++ rest) =
      match rest with
      | [] => if s.form.isSome then side.await s else side.give s ""
      | _ :: value => if s.form.isSome then side.give s (String.ofList value) else .error .usage := by
  obtain ⟨htake, hdrop⟩ := hswitches.takeWhile_name hs rest hrest
  unfold Side.long
  rw [htake, hdrop, String.ofList_toList]
  dsimp only
  rw [hswitches.find?_name hs]
  cases rest <;> rfl

/-- A name is read as what it spells. -/
theorem Named.long {cs : List Char} {options : List (Switch × String)} {left : Option Switch}
    (hnamed : Named switches cs options left) {side : Side} (h : side.Free) :
    side.long switches cs = side.take options left := by
  have hname {s : Switch} (hs : s ∈ switches) : side.long switches s.name.toList =
      if s.form.isSome then side.await s else side.give s "" := by
    have hlong := hswitches.long_eq hs [] (by simp) side
    rwa [List.append_nil] at hlong
  cases hnamed with
  | flag hs hform => rw [hname hs, hform, if_neg (by simp), h.take_singleton]
  | joined hs hform value =>
    rw [hswitches.long_eq hs ('=' :: value) (by simp) side, h.take_singleton]
    exact if_pos hform
  | apart hs hform => rw [hname hs, if_pos hform, Side.await_eq_take]

/-- Letters are read as what they spell. -/
theorem Letters.short {cs : List Char} {options : List (Switch × String)} {left : Option Switch}
    (hletters : Letters switches cs options left) {side : Side} (h : side.Free)
    (hready : cs = [] → side.Ready) : side.short switches cs = side.take options left := by
  induction hletters generalizing side with
  | nil => rw [(hready rfl).take_nil, Side.short]
  | flag hs hletter hform _ ih =>
    rw [Side.short, hswitches.find?_letter hs hletter]
    dsimp only
    rw [hform, if_neg (by simp), h.take_cons]
    -- once the first letter has been read, nothing is open
    refine bind_congr_of_ok fun mid hmid => ?_
    have hmid' : mid.Ready := h.ready_give hmid
    exact ih hmid'.free fun _ => hmid'
  | joined hs hletter hform value =>
    rw [Side.short, hswitches.find?_letter hs hletter]
    rw [h.take_singleton]
    exact if_pos hform
  | attached hs hletter hform hd value =>
    rw [Side.short, hswitches.find?_letter hs hletter]
    dsimp only
    rw [if_pos hform]
    split
    · rename_i heq
      cases heq
    · rename_i heq
      exact absurd (List.cons.inj heq).1 hd
    · rw [h.take_singleton]
  | apart hs hletter hform =>
    rw [Side.short, hswitches.find?_letter hs hletter]
    dsimp only
    rw [if_pos hform, Side.await_eq_take]

/-- Two dashes begin a name. -/
theorem Named.ne_nil {cs : List Char} {options : List (Switch × String)} {left : Option Switch}
    (hnamed : Named switches cs options left) : cs ≠ [] := by
  cases hnamed with
  | flag hs => exact hswitches.name_ne _ hs
  | joined hs => exact List.append_ne_nil_of_right_ne_nil _ (List.cons_ne_nil _ _)
  | apart hs => exact hswitches.name_ne _ hs

/-- One dash begins letters. -/
theorem Letters.ne_dash {c : Char} {cs : List Char} {options : List (Switch × String)}
    {left : Option Switch} (hletters : Letters switches (c :: cs) options left) : c ≠ '-' := by
  have hne {s : Switch} (hs : s ∈ switches) (hletter : s.letter = some c) : c ≠ '-' := by
    rintro rfl
    exact hswitches.letter_ne s hs hletter
  cases hletters with
  | flag hs hletter => exact hne hs hletter
  | joined hs hletter => exact hne hs hletter
  | attached hs hletter => exact hne hs hletter
  | apart hs hletter => exact hne hs hletter

/-- **An argument is read as what it spells.** -/
theorem Word.read {arg : String} {options : List (Switch × String)} {left : Option Switch}
    (hword : Word switches arg options left) {side : Side} (h : side.Free) :
    side.read switches arg = side.take options left := by
  cases hword with
  | @named cs _ _ hnamed =>
    have hne := hnamed.ne_nil hswitches
    rw [h.read, String.toList_ofList, ← hnamed.long hswitches h]
    cases cs with
    | nil => exact absurd rfl hne
    | cons c cs => rfl
  | @letters cs _ _ hletters hne =>
    rw [h.read, String.toList_ofList, ← hletters.short hswitches h fun h => absurd h hne]
    cases cs with
    | nil => exact absurd rfl hne
    | cons c cs =>
      have hc := hletters.ne_dash hswitches
      split
      · rename_i heq
        cases heq
        exact absurd rfl hc
      · rename_i heq
        cases heq
        exact absurd rfl hc
      · rename_i heq
        cases heq
        rfl
      · rename_i hno
        exact absurd rfl (hno c cs)

end

/-- A name that is read spells something. -/
theorem exists_named_of_long {side x : Side} {cs : List Char}
    (h : side.long switches cs = .ok x) : ∃ options left, Named switches cs options left := by
  unfold Side.long at h
  dsimp only at h
  cases hfound : switches.find? fun s => s.name == String.ofList (cs.takeWhile (· != '=')) with
  | none =>
    rw [hfound] at h
    cases h
  | some s =>
    have hs : s ∈ switches := List.mem_of_find?_eq_some hfound
    have hname : s.name.toList = cs.takeWhile (· != '=') := by
      have hfits := List.find?_some hfound
      rw [beq_iff_eq.mp hfits, String.toList_ofList]
    have hsplit : s.name.toList ++ cs.dropWhile (· != '=') = cs := by
      rw [hname, List.takeWhile_append_dropWhile]
    rw [hfound] at h
    cases hrest : cs.dropWhile (· != '=') with
    | nil =>
      rw [hrest, List.append_nil] at hsplit
      rw [← hsplit]
      cases hform : s.form with
      | none => exact ⟨_, _, .flag hs hform⟩
      | some form => exact ⟨_, _, .apart hs (by rw [hform]; rfl)⟩
    | cons c value =>
      have hc : c = '=' := by
        have hhead := List.head?_dropWhile_not (· != '=') cs
        rw [hrest] at hhead
        simpa using hhead
      rw [hrest, hc] at hsplit
      rw [hrest] at h
      dsimp only at h
      split at h
      · rename_i hform
        rw [← hsplit]
        exact ⟨_, _, .joined hs hform value⟩
      · cases h

/-- Letters that are read spell something. -/
theorem exists_letters_of_short {cs : List Char} {side x : Side}
    (h : side.short switches cs = .ok x) : ∃ options left, Letters switches cs options left := by
  induction cs generalizing side with
  | nil => exact ⟨_, _, .nil⟩
  | cons c cs ih =>
    rw [Side.short] at h
    cases hfound : switches.find? fun s => s.letter == some c with
    | none =>
      rw [hfound] at h
      cases h
    | some s =>
      have hs : s ∈ switches := List.mem_of_find?_eq_some hfound
      have hfits := List.find?_some hfound
      have hletter : s.letter = some c := beq_iff_eq.mp hfits
      rw [hfound] at h
      dsimp only at h
      by_cases hform : s.form.isSome = true
      · cases cs with
        | nil => exact ⟨_, _, .apart hs hletter hform⟩
        | cons d value =>
          by_cases hd : d = '='
          · rw [hd]
            exact ⟨_, _, .joined hs hletter hform value⟩
          · exact ⟨_, _, .attached hs hletter hform hd value⟩
      · rw [if_neg hform, except_bind_eq_ok_iff] at h
        obtain ⟨mid, -, hmid⟩ := h
        obtain ⟨options, left, hrest⟩ := ih hmid
        rw [Option.not_isSome_iff_eq_none] at hform
        exact ⟨_, _, .flag hs hletter hform hrest⟩

/-- **An argument that is read spells something**, unless it is the double dash. -/
theorem exists_word_of_read {side x : Side} (h : side.Free) {arg : String}
    (hread : side.read switches arg = .ok x) :
    arg = "--" ∨ ∃ options left, Word switches arg options left := by
  have harg : arg = String.ofList arg.toList := String.ofList_toList.symm
  rw [h.read] at hread
  split at hread
  · rename_i heq
    rw [harg, heq]
    exact .inl rfl
  · rename_i name heq
    obtain ⟨options, left, hnamed⟩ := exists_named_of_long hread
    rw [harg, heq]
    exact .inr ⟨options, left, .named hnamed⟩
  · rename_i c letters heq
    obtain ⟨options, left, hletters⟩ := exists_letters_of_short hread
    rw [harg, heq]
    exact .inr ⟨options, left, .letters hletters (List.cons_ne_nil _ _)⟩
  · cases hread

/-! ## 3. All arguments of a side -/

/-- Reading the arguments from a side on ends with another one, on which no option is open. -/
def Ends (switches : List Switch) (side : Side) (args : List String) (done : Side) : Prop :=
  ∃ last, args.foldlM (Side.read switches) side = .ok last ∧ last.settle = .ok done

theorem ends_nil_iff (side done : Side) : Ends switches side [] done ↔ side.settle = .ok done := by
  constructor
  · intro ⟨last, hlast, hdone⟩
    cases hlast
    exact hdone
  · exact fun h => ⟨side, rfl, h⟩

theorem ends_cons_iff (side : Side) (arg : String) (args : List String) (done : Side) :
    Ends switches side (arg :: args) done ↔
      ∃ mid, side.read switches arg = .ok mid ∧ Ends switches mid args done := by
  constructor
  · intro ⟨last, hlast, hdone⟩
    rw [List.foldlM_cons, except_bind_eq_ok_iff] at hlast
    obtain ⟨mid, hmid, hlast⟩ := hlast
    exact ⟨mid, hmid, last, hlast, hdone⟩
  · intro ⟨mid, hmid, last, hlast, hdone⟩
    refine ⟨last, ?_, hdone⟩
    rw [List.foldlM_cons, except_bind_eq_ok_iff]
    exact ⟨mid, hmid, hlast⟩

/-- The side after a double dash. -/
def Side.close (side : Side) : Side := { side with closed := true }

theorem Side.Free.read_dashes {side : Side} (h : side.Free) :
    side.read switches "--" = .ok side.close := by
  rw [h.read]
  rfl

theorem Side.Free.settle_close {side : Side} (h : side.Free) (done : Side) :
    side.close.settle = .ok done ↔ ∃ mid, side.settle = .ok mid ∧ done = mid.close := by
  obtain ⟨given, pending, closed⟩ := side
  match pending with
  | none => simp [close, settle, eq_comm]
  | some (s, none) => simp [close, settle]
  | some (s, some value) => simp [close, settle, record_eq_ok_iff, and_assoc]

/-- After a double dash nothing more is read. -/
theorem ends_close_iff {side : Side} (h : side.Free) (args : List String) (done : Side) :
    Ends switches side.close args done ↔
      args = [] ∧ ∃ mid, side.settle = .ok mid ∧ done = mid.close := by
  cases args with
  | nil => rw [ends_nil_iff, h.settle_close, and_iff_right rfl]
  | cons arg args =>
    have hread : side.close.read switches arg = .error .usage := by
      obtain ⟨given, pending, closed⟩ := side
      match pending, h.1 with
      | none, _ => rfl
      | some (s, some value), _ => rfl
    rw [ends_cons_iff, hread]
    simp

section

variable (hswitches : Distinct switches)

include hswitches

/-- What is still open is closed before the next argument, or at the end. -/
theorem ends_settle_iff {side : Side} (h : side.Free) (args : List String) (done : Side) :
    Ends switches side args done ↔
      ∃ mid, side.settle = .ok mid ∧ Ends switches mid args done := by
  have hsettled {mid : Side} (hmid : side.settle = .ok mid) : mid.Ready := h.ready hmid
  cases args with
  | nil =>
    simp only [ends_nil_iff]
    constructor
    · intro hdone
      exact ⟨done, hdone, (hsettled hdone).settle⟩
    · intro ⟨mid, hmid, hdone⟩
      rwa [(hsettled hmid).settle, ← hmid] at hdone
  | cons arg args =>
    by_cases harg : arg = "--"
    · subst harg
      simp only [ends_cons_iff, h.read_dashes, Except.ok.injEq, exists_eq_left', ends_close_iff h]
      constructor
      · intro ⟨hargs, mid, hmid, hdone⟩
        have hclosed : Ends switches mid.close args done :=
          (ends_close_iff (hsettled hmid).free _ _).mpr ⟨hargs, mid, (hsettled hmid).settle, hdone⟩
        exact ⟨mid, hmid, mid.close, (hsettled hmid).free.read_dashes, hclosed⟩
      · intro ⟨mid, hmid, closed, hread, hclosed⟩
        rw [(hsettled hmid).free.read_dashes] at hread
        cases hread
        obtain ⟨hargs, last, hlast, hdone⟩ := (ends_close_iff (hsettled hmid).free _ _).mp hclosed
        rw [(hsettled hmid).settle] at hlast
        cases hlast
        exact ⟨hargs, mid, hmid, hdone⟩
    · -- any other argument is read as a word, on both sides
      have hword {options : List (Switch × String)} {left : Option Switch}
          (hword : Word switches arg options left) :
          side.read switches arg = side.settle >>= fun mid => mid.read switches arg := by
        rw [hword.read hswitches h, Side.take]
        refine bind_congr_of_ok fun mid hmid => ?_
        rw [hword.read hswitches (hsettled hmid).free, Side.take, (hsettled hmid).settle]
        rfl
      simp only [ends_cons_iff]
      constructor
      · intro ⟨x, hx, hdone⟩
        obtain ⟨options, left, hspells⟩ := (exists_word_of_read h hx).resolve_left harg
        rw [hword hspells, except_bind_eq_ok_iff] at hx
        obtain ⟨mid, hmid, hx⟩ := hx
        exact ⟨mid, hmid, x, hx, hdone⟩
      · intro ⟨mid, hmid, x, hx, hdone⟩
        obtain ⟨options, left, hspells⟩ :=
          (exists_word_of_read (hsettled hmid).free hx).resolve_left harg
        refine ⟨x, ?_, hdone⟩
        rw [hword hspells, hmid]
        exact hx

/-- An argument that leaves nothing open. -/
theorem ends_word_iff {side : Side} (h : side.Ready) {arg : String}
    {options : List (Switch × String)} (hword : Word switches arg options none)
    (args : List String) (done : Side) :
    Ends switches side (arg :: args) done ↔
      ∃ mid, side.recordAll options = .ok mid ∧ Ends switches mid args done := by
  have hread : side.read switches arg = side.recordAll options := by
    rw [hword.read hswitches h.free, Side.take, h.settle]
    show side.recordAll options >>= _ = _
    refine (bind_congr_of_ok fun mid hmid => ?_).trans (bind_pure _)
    rw [(h.recordAll hmid).leaving_none]
  rw [ends_cons_iff, hread]

/-- An option that was left open takes the next argument, if that can be a value. -/
theorem ends_leaving_iff {side : Side} (h : side.Ready) (s : Switch) (args : List String)
    (done : Side) :
    Ends switches (side.leaving (some s)) args done ↔
      ∃ value rest, args = value :: rest ∧ IsValue value ∧
        ∃ mid, side.record s value = .ok mid ∧ Ends switches mid rest done := by
  cases args with
  | nil =>
    rw [ends_nil_iff]
    simp [Side.leaving, Side.settle]
  | cons arg args =>
    let filled : Side := { side with pending := some (s, some arg) }
    have hread : (side.leaving (some s)).read switches arg =
        if Side.isValue arg then .ok filled else .error .usage := rfl
    have hfilled : Ends switches filled args done ↔
        ∃ mid, side.record s arg = .ok mid ∧ Ends switches mid args done := by
      have hsettle : filled.settle = side.record s arg := by
        obtain ⟨given, pending, closed⟩ := side
        obtain ⟨hpending, -⟩ := h
        cases hpending
        rfl
      have hfree : filled.Free := ⟨rfl, h.2⟩
      rw [ends_settle_iff hswitches hfree, hsettle]
    rw [ends_cons_iff, hread]
    by_cases hvalue : Side.isValue arg = true
    · simp [hvalue, hfilled, (isValue_iff arg).mp hvalue]
    · have hno : ¬ IsValue arg := fun h => hvalue ((isValue_iff arg).mpr h)
      simp [hvalue, hno]

/-- An argument whose last option takes the next argument as its value. -/
theorem ends_wordApart_iff {side : Side} (h : side.Ready) {arg : String}
    {options : List (Switch × String)} {s : Switch} (hword : Word switches arg options (some s))
    (args : List String) (done : Side) :
    Ends switches side (arg :: args) done ↔
      ∃ value rest, args = value :: rest ∧ IsValue value ∧
        ∃ mid, side.recordAll (options ++ [(s, value)]) = .ok mid ∧
          Ends switches mid rest done := by
  have hread : side.read switches arg =
      side.recordAll options >>= fun mid => .ok (mid.leaving (some s)) := by
    rw [hword.read hswitches h.free, Side.take, h.settle]
    rfl
  rw [ends_cons_iff, hread]
  simp only [except_bind_eq_ok_iff, Side.recordAll_append_eq_ok_iff, Side.recordAll_singleton]
  constructor
  · intro ⟨x, ⟨first, hfirst, hx⟩, hends⟩
    cases hx
    obtain ⟨value, rest, hargs, hvalue, mid, hmid, hends⟩ :=
      (ends_leaving_iff hswitches (h.recordAll hfirst) s args done).mp hends
    exact ⟨value, rest, hargs, hvalue, mid, ⟨first, hfirst, hmid⟩, hends⟩
  · intro ⟨value, rest, hargs, hvalue, mid, ⟨first, hfirst, hmid⟩, hends⟩
    exact ⟨_, ⟨first, hfirst, rfl⟩, (ends_leaving_iff hswitches (h.recordAll hfirst) s args
      done).mpr ⟨value, rest, hargs, hvalue, mid, hmid, hends⟩⟩

/-- What can be read to its end spells options, and these are recorded. -/
theorem exists_spells_of_ends {side : Side} (h : side.Ready) (args : List String) {done : Side}
    (hends : Ends switches side args done) :
    ∃ words options mid, Spells switches words options ∧ side.recordAll options = .ok mid ∧
      (args = words ∧ done = mid ∨ args = words ++ ["--"] ∧ done = mid.close) := by
  match args with
  | [] =>
    rw [ends_nil_iff, h.settle] at hends
    cases hends
    exact ⟨[], [], side, .nil, rfl, .inl ⟨rfl, rfl⟩⟩
  | arg :: args =>
    obtain ⟨x, hx, hrest⟩ := (ends_cons_iff _ _ _ _).mp hends
    rcases exists_word_of_read h.free hx with rfl | ⟨options, left, hword⟩
    · rw [h.free.read_dashes] at hx
      cases hx
      obtain ⟨rfl, mid, hmid, hdone⟩ := (ends_close_iff h.free _ _).mp hrest
      rw [h.settle] at hmid
      cases hmid
      exact ⟨[], [], side, .nil, rfl, .inr ⟨rfl, hdone⟩⟩
    · cases left with
      | none =>
        obtain ⟨mid, hmid, hrest⟩ := (ends_word_iff hswitches h hword args done).mp hends
        obtain ⟨words, more, last, hspells, hlast, hargs⟩ :=
          exists_spells_of_ends (h.recordAll hmid) args hrest
        refine ⟨arg :: words, options ++ more, last, .closed hword hspells, ?_, ?_⟩
        · exact (Side.recordAll_append_eq_ok_iff _ _ _ _).mpr ⟨mid, hmid, hlast⟩
        · simpa using hargs
      | some s =>
        obtain ⟨value, rest, rfl, hvalue, mid, hmid, hrest⟩ :=
          (ends_wordApart_iff hswitches h hword args done).mp hends
        obtain ⟨words, more, last, hspells, hlast, hargs⟩ :=
          exists_spells_of_ends (h.recordAll hmid) rest hrest
        refine ⟨arg :: value :: words, options ++ (s, value) :: more, last,
          .apart hword hvalue hspells, ?_, ?_⟩
        · rw [List.append_cons]
          exact (Side.recordAll_append_eq_ok_iff _ _ _ _).mpr ⟨mid, hmid, hlast⟩
        · simpa using hargs
termination_by args.length

/-- What spells options that can be recorded is read to its end, whatever follows. -/
theorem ends_append_iff_of_spells {words : List String} {options : List (Switch × String)}
    (hspells : Spells switches words options) {side mid : Side} (h : side.Ready)
    (hrecord : side.recordAll options = .ok mid) (rest : List String) (done : Side) :
    Ends switches side (words ++ rest) done ↔ Ends switches mid rest done := by
  induction hspells generalizing side with
  | nil =>
    cases hrecord
    rfl
  | closed hword _ ih =>
    obtain ⟨first, hfirst, hmore⟩ := (Side.recordAll_append_eq_ok_iff _ _ _ _).mp hrecord
    rw [List.cons_append, ends_word_iff hswitches h hword]
    simp only [hfirst, Except.ok.injEq, exists_eq_left', ih (h.recordAll hfirst) hmore]
  | apart hword hvalue _ ih =>
    rw [List.append_cons] at hrecord
    obtain ⟨first, hfirst, hmore⟩ := (Side.recordAll_append_eq_ok_iff _ _ _ _).mp hrecord
    rw [List.cons_append, List.cons_append, ends_wordApart_iff hswitches h hword]
    constructor
    · intro ⟨value', rest', hargs, _, mid', hmid', hends⟩
      cases hargs
      rw [hfirst] at hmid'
      cases hmid'
      exact (ih (h.recordAll hfirst) hmore).mp hends
    · intro hends
      exact ⟨_, _, rfl, hvalue, first, hfirst, (ih (h.recordAll hfirst) hmore).mpr hends⟩

/-- **Reading ends well exactly if the arguments spell options that can be recorded.** A double dash
may follow them. -/
theorem ends_iff {side : Side} (h : side.Ready) (args : List String) (done : Side) :
    Ends switches side args done ↔
      ∃ words options mid, Spells switches words options ∧ side.recordAll options = .ok mid ∧
        (args = words ∧ done = mid ∨ args = words ++ ["--"] ∧ done = mid.close) := by
  constructor
  · exact exists_spells_of_ends hswitches h args
  · intro ⟨words, options, mid, hspells, hrecord, hargs⟩
    have hmid : mid.Ready := h.recordAll hrecord
    have hends := ends_append_iff_of_spells hswitches hspells h hrecord
    rcases hargs with ⟨rfl, hdone⟩ | ⟨rfl, hdone⟩
    · have hall := hends [] done
      rw [List.append_nil, ends_nil_iff, hmid.settle] at hall
      exact hall.mpr (by rw [hdone])
    · rw [hends, ends_cons_iff, hmid.free.read_dashes]
      exact ⟨_, rfl, (ends_close_iff hmid.free _ _).mpr ⟨rfl, mid, hmid.settle, hdone⟩⟩

/-- **A side has what its arguments give.** -/
theorem ends_empty_iff (args : List String) (done : Side) :
    Ends switches {} args done ↔
      ∃ words given, Gives switches words given ∧
        (args = words ∧ done = { given } ∨
          args = words ++ ["--"] ∧ done = Side.close { given }) := by
  have hempty : Side.Ready {} := ⟨rfl, rfl⟩
  rw [ends_iff hswitches hempty]
  constructor
  · intro ⟨words, options, mid, hspells, hrecord, hargs⟩
    obtain ⟨hnodup, hfit, rfl⟩ :=
      (Side.recordAll_eq_ok_iff options {} mid List.nodup_nil).mp hrecord
    exact ⟨words, givenOf options, ⟨options, hspells, rfl, hnodup, hfit⟩, hargs⟩
  · intro ⟨words, given, ⟨options, hspells, hgiven, hnodup, hfit⟩, hargs⟩
    rw [hgiven] at hnodup hargs
    exact ⟨words, options, _, hspells,
      (Side.recordAll_eq_ok_iff options {} _ List.nodup_nil).mpr ⟨hnodup, hfit, rfl⟩, hargs⟩

end

end ModifierFacts.CommandLine
