import ModifierFacts.Proofs.Json.ReadBack
import ModifierFacts.Proofs.Text.Bytes
import ModifierFacts.Sink.JsonLines

/-!
# Facts on lines

A fact is written as one line. Whatever names the facts bring, their lines can be told apart and
each of them is read back as its fact.

* `Fact.stands`: what is written of a fact stands for it; `Fact.decode_toText`: it is read back;
* `Text.lines`: the lines of a text; `Fact.sheet`: the text of a list of facts;
* `Fact.text_flatMap_line`: the bytes of the lines are the bytes of that text;
* **`Fact.lines_sheet`, `Fact.decode_lines_sheet`**: it is cut into one line for each fact, and
  these are read back as the facts.
-/

namespace ModifierFacts

open Json (Stands stands_word stands_text stands_chosen)

/-! ## 1. One fact -/

theorem EntityId.stands (id : EntityId) : Stands EntityId.reader 0 id.toJson id :=
  (stands_word "u64" id.value).map EntityId.mk

theorem DeclarationId.stands (id : DeclarationId) : Stands DeclarationId.reader 0 id.toJson id :=
  (stands_word "u64" id.value).map DeclarationId.mk

theorem ModifierEntity.stands_record {α : Type} (title : String) (make : EntityId → String → α)
    (e : ModifierEntity) : Stands (record title make).reader 1 e.toJson (make e.id e.name) :=
  (record title make).stands (by decide : ["id", "name"].Nodup)
    (.field rfl e.id.stands <| .field rfl (stands_text e.name) <| .nil _) rfl

theorem ModifierEdge.stands_record {α : Type} (title : String)
    (make : DeclarationId → EntityId → α) (e : ModifierEdge) :
    Stands (record title make).reader 1 e.toJson (make e.declaration e.modifier) :=
  (record title make).stands (by decide : ["declaration", "modifier"].Nodup)
    (.field rfl e.declaration.stands <| .field rfl e.modifier.stands <| .nil _) rfl

namespace Fact

/-- **What is written of a fact stands for it**, whatever its name and its identifiers. -/
theorem stands (f : Fact) : Stands reader 2 f.toJson f := by
  cases f with
  | modifiers id name =>
    exact stands_chosen rfl (ModifierEntity.stands_record _ Fact.modifiers ⟨id, name⟩)
  | hasModifiers declaration modifier =>
    exact stands_chosen rfl (ModifierEdge.stands_record _ Fact.hasModifiers ⟨declaration, modifier⟩)

theorem decode_toText (f : Fact) : Json.decode reader f.toJson.toText = .ok f :=
  f.stands.decode (by decide)

end Fact

/-! ## 2. Lines -/

/-- The lines of a text. What stands after the last line feed is none. -/
def Text.lines (text : String) : List String :=
  ((text.toList.splitOn '\n').map String.ofList).dropLast

namespace Fact

/-- The text of a list of facts, with a line feed after each. -/
def sheet (facts : List Fact) : String := String.join (facts.map fun f => f.toJson.toText ++ "\n")

theorem toList_sheet (facts : List Fact) :
    (sheet facts).toList = facts.flatMap fun f => f.toJson.chars ++ ['\n'] := by
  have hline (f : Fact) : (f.toJson.toText ++ "\n").toList = f.toJson.chars ++ ['\n'] := by
    rw [String.toList_append, Json.Value.toText, String.toList_ofList]
    rfl
  rw [sheet, String.toList_join, List.flatMap_map]
  simp only [hline]

theorem splitOn_sheet (facts : List Fact) :
    (sheet facts).toList.splitOn '\n' = facts.map (·.toJson.chars) ++ [[]] := by
  rw [toList_sheet]
  induction facts with
  | nil => rfl
  | cons f facts ih =>
    rw [List.flatMap_cons, List.append_assoc, List.singleton_append,
      List.splitOn_append_cons_self_of_not_mem f.toJson.newline_notMem_chars, ih]
    rfl

/-- **The text of facts has one line for each.** -/
theorem lines_sheet (facts : List Fact) :
    Text.lines (sheet facts) = facts.map fun f => f.toJson.toText := by
  rw [Text.lines, splitOn_sheet, List.map_append, List.map_map]
  exact List.dropLast_concat

/-- **The lines of the text of facts are read back as the facts.** -/
theorem decode_lines_sheet (facts : List Fact) :
    (Text.lines (sheet facts)).map (Json.decode reader) = facts.map .ok := by
  rw [lines_sheet, List.map_map]
  exact List.map_congr_left fun f _ => f.decode_toText

/-- The text of facts has a line feed for each of them, and no other. -/
theorem count_newline_sheet (facts : List Fact) :
    (sheet facts).toList.count '\n' = facts.length := by
  rw [toList_sheet]
  induction facts with
  | nil => rfl
  | cons f facts ih =>
    rw [List.flatMap_cons, List.count_append, List.count_append, ih,
      List.count_eq_zero_of_not_mem f.toJson.newline_notMem_chars, List.length_cons]
    exact Nat.add_comm _ _

/-- The bytes of the lines are those of the text. -/
theorem flatMap_line (facts : List Fact) : facts.flatMap line = Text.bytes (sheet facts) := by
  rw [sheet, Text.bytes_join, List.flatMap_map]
  rfl

/-- What holds the lines of facts is read as their text. -/
theorem text_flatMap_line (facts : List Fact) :
    (File.bytes (facts.flatMap line)).text = .ok (sheet facts) := by
  rw [flatMap_line, File.text_bytes]

end Fact

end ModifierFacts
