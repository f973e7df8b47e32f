import ModifierFacts.CommandLine.Storage
import ModifierFacts.Text.ByteOrder

/-!
# The bytes of texts

The bytes of a text are those of its characters, one after the other, and a file that holds them is
read as the text.

* `Text.bytes_append`, `Text.bytes_join`: the bytes of texts put together;
* **`File.text_bytes`**: what holds the bytes of a text is read as it.
-/

namespace ModifierFacts

namespace Text

/-- Collecting the bytes of an array from a place on. -/
theorem toList_loop (bs : ByteArray) (i : Nat) (found : List UInt8) :
    ByteArray.toList.loop bs i found = found.reverse ++ bs.data.toList.drop i := by
  fun_induction ByteArray.toList.loop bs i found with
  | case1 i found hi ih =>
    have hlength : i < bs.data.toList.length := hi
    have hget : bs.get! i = bs.data.toList[i] := by
      have hdata : bs.get! i = bs.data[i]! := rfl
      rw [hdata, getElem!_pos bs.data i hi, Array.getElem_toList]
    rw [ih, List.reverse_cons, List.append_assoc, hget, List.drop_eq_getElem_cons hlength]
    rfl
  | case2 i found hi =>
    have hlength : bs.data.toList.length ≤ i := Nat.le_of_not_lt hi
    rw [List.drop_eq_nil_of_le hlength, List.append_nil]

theorem bytes_eq_data (s : String) : bytes s = s.toByteArray.data.toList := by
  show ByteArray.toList.loop s.toByteArray 0 [] = _
  rw [toList_loop]
  rfl

theorem bytes_append (s t : String) : bytes (s ++ t) = bytes s ++ bytes t := by
  rw [bytes_eq_data, bytes_eq_data, bytes_eq_data, String.toByteArray_append,
    ByteArray.toList_data_append]

theorem bytes_join (texts : List String) : bytes (String.join texts) = texts.flatMap bytes := by
  induction texts with
  | nil => rw [String.join_nil, bytes_eq_data]; rfl
  | cons s texts ih => rw [String.join_cons, bytes_append, ih, List.flatMap_cons]

end Text

/-- **A file with the bytes of a text is read as the text.** -/
theorem File.text_bytes (s : String) : (File.bytes (Text.bytes s)).text = .ok s := by
  have hbytes : (⟨(Text.bytes s).toArray⟩ : ByteArray) = s.toByteArray := by
    rw [Text.bytes_eq_data]
  have hread : String.fromUTF8? s.toByteArray = some s := by
    rw [String.fromUTF8?, dif_pos s.isValidUTF8]
    rfl
  rw [File.text, hbytes, hread]

end ModifierFacts
